import LedgerClient.Proofs.Address.Codec
import LedgerClient.Proofs.Payload.Refusal
import LedgerClient.Proofs.Payload.Typing
import LedgerClient.Proofs.Signer.Key

/-!
# The spellings of a payload

The value of a field can be spelled in several ways: an address by its digits or its bytes, an amount by
an integer or a numeral, a choice by one of its names, metadata by a sequence or a dictionary. All
spellings are brought to the same value, so they build the same payload, and a payload is built again from
the values of its own fields.
-/

namespace LedgerClient

/-! ## Metadata -/

namespace Metadata

/-- What may stand for a pair in a sequence. -/
inductive ItemSpells : Value → Value → Prop where
  | pair (key value : Value) : ItemSpells (.pair key value) (.pair key value)
  | dict {entries : List (Value × Value)} {e : Entry}
      (hkey : Value.lookup "key" entries = some e.key.toValue)
      (hvalue : Value.lookup "value" entries = some e.value.toValue) :
      ItemSpells (.dict entries) e.toValue

theorem element_of_spells {item w : Value} (h : ItemSpells item w) : element item = .ok w := by
  cases h with
  | pair key value => rfl
  | dict hkey hvalue =>
    rw [element, Entry.ofDict, Value.require, hkey, Value.require, hvalue]
    simp only [bind, Except.bind, Script.script_toValue]
    rfl

theorem elements_of_spells {items ws : List Value} (h : List.Forall₂ ItemSpells items ws) :
    elements items = .ok ws := by
  induction h with
  | nil => rfl
  | cons hitem _ ih =>
    rw [elements, element_of_spells hitem, ih]
    rfl

theorem pairs_list (items : List Value) : pairs (.list items) = elements items := by
  cases items <;> rfl

theorem pairs_tuple (items : List Value) : pairs (.tuple items) = elements items := by
  cases items <;> rfl

theorem pairs_dict (entries : List (Value × Value)) :
    pairs (.dict entries) = .ok (entries.map fun e => .pair e.1 e.2) := by
  cases entries <;> rfl

/-- Pairs spell themselves. -/
theorem spells_pairs (entries : List (Value × Value)) :
    List.Forall₂ ItemSpells (entries.map fun e => .pair e.1 e.2)
      (entries.map fun e => .pair e.1 e.2) := by
  rw [List.forall₂_same]
  intro w hw
  obtain ⟨e, -, rfl⟩ := List.mem_map.mp hw
  exact .pair e.1 e.2

end Metadata

/-! ## Addresses and choices -/

namespace Choice

/-- The families of which a payload holds choices. -/
def payloadFamilies : List Family :=
  [.authorityAction, .authority, .pauseAction, .blacklistAction, .whitelistAction]

/-- The names by which a choice is found, in any case. -/
def names (c : Choice) : List String := [c.label, c.identifier]

/-- Choices of one family share no name. -/
theorem find?_name {c : Choice} (hfamily : c.family ∈ payloadFamilies) {name : String}
    (hname : name ∈ c.names) :
    c.family.members.find? (fun d => Text.lower d.label = Text.lower name ||
      Text.lower d.identifier = Text.lower name) = some c := by
  have hall : ∀ family ∈ payloadFamilies, ∀ c ∈ family.members, ∀ name ∈ c.names,
      family.members.find? (fun d => Text.lower d.label = Text.lower name ||
        Text.lower d.identifier = Text.lower name) = some c := by
    decide
  exact hall c.family hfamily c c.mem_members name hname

theorem ofText_of_lower {c : Choice} (hfamily : c.family ∈ payloadFamilies) {name s : String}
    (hname : name ∈ c.names) (hs : Text.lower s = Text.lower name) : ofText c.family s = .ok c := by
  simp only [ofText, hs, find?_name hfamily hname]

end Choice

theorem Payload.families_of_layout (variant : Variant) : ∀ f ∈ variant.layout, ∀ family,
    f.kind = .choice family → family ∈ Choice.payloadFamilies := by
  have hall : ∀ f ∈ variant.layout, ∀ family ∈ Family.all, f.kind = .choice family →
      family ∈ Choice.payloadFamilies := by
    cases variant <;> decide
  intro f hf family
  exact hall f hf family (by cases family <;> decide)

/-! ## Fields -/

/-- A caller's value and the value of the field that it spells. -/
inductive FieldKind.Spells : FieldKind → Value → Value → Prop where
  | own {kind : FieldKind} {w : Value} (h : kind.Coerced w) : Spells kind w w
  | digits {a : Address} {marker digits : List Char} (hmarker : marker ∈ Signer.markers)
      (hdigits : digits.map Char.toLower = a.hexChars) :
      Spells .address (.text (String.ofList (marker ++ digits))) (.address a)
  | bytes (a : Address) : Spells .address (.bytes a.bytes) (.address a)
  | buffer (a : Address) : Spells .address (.buffer a.bytes) (.address a)
  | units (a : TokenAmount) : Spells .amount (.int a.units) (.amount a)
  | numeral {a : TokenAmount} {s : String} {digits : List Nat} (hs : TokenAmount.IsNumeral s digits)
      (hlen : digits.length ≤ Integer.digitLimit) (ha : Integer.ofDigits 10 digits = a.units) :
      Spells .amount (.text s) (.amount a)
  | name {c : Choice} {name s : String} (hname : name ∈ c.names)
      (hs : Text.lower s = Text.lower name) : Spells (.choice c.family) (.text s) (.choice c)
  | list {items ws : List Value} (h : List.Forall₂ Metadata.ItemSpells items ws) :
      Spells .metadata (.list items) (.tuple ws)
  | tuple {items ws : List Value} (h : List.Forall₂ Metadata.ItemSpells items ws) :
      Spells .metadata (.tuple items) (.tuple ws)
  | dict (entries : List (Value × Value)) :
      Spells .metadata (.dict entries) (.tuple (entries.map fun e => .pair e.1 e.2))
  | absent : Spells .metadata .null (.tuple [])

namespace Payload

open FieldKind

/-- A value that a field keeps is kept again. -/
theorem coerceField_of_coerced {f : Field} {w : Value} (h : f.kind.Coerced w) :
    coerceField f w = .ok w := by
  obtain ⟨name, kind, isOptional⟩ := f
  cases kind with
  | address => rcases h with rfl | ⟨a, rfl⟩ <;> rfl
  | amount => rcases h with rfl | ⟨a, rfl⟩ <;> rfl
  | choice family =>
    cases w with
    | text s => cases h
    | torn t => cases h
    | _ => rfl
  | metadata =>
    obtain ⟨entries, rfl⟩ := h
    rw [coerceField_metadata_eq, Metadata.pairs_tuple,
      Metadata.elements_of_spells (Metadata.spells_pairs entries)]
    rfl
  | _ => cases w <;> rfl

/-- The constructor brings a spelling to the value of the field. -/
theorem coerceField_of_spells {f : Field} {v w : Value} (h : f.kind.Spells v w)
    (hfamily : ∀ family, f.kind = .choice family → family ∈ Choice.payloadFamilies) :
    coerceField f v = .ok w := by
  obtain ⟨name, kind, isOptional⟩ := f
  cases h with
  | own h => exact coerceField_of_coerced h
  | @digits a marker digits hmarker hdigits =>
    show (do let b ← Address.ofHex _; return Value.address b) = _
    rw [Address.ofHex_of_marked hmarker hdigits]
    rfl
  | bytes a =>
    show (do let b ← Address.ofByteString a.bytes; return Value.address b) = _
    rw [Address.ofByteString_bytes]
    rfl
  | buffer a =>
    show (do let b ← Address.ofByteString a.bytes; return Value.address b) = _
    rw [Address.ofByteString_bytes]
    rfl
  | units a =>
    show (do let b ← TokenAmount.ofInt a.units; return Value.amount b) = _
    rw [TokenAmount.ofInt_units]
    rfl
  | @numeral a s digits hs hlen ha =>
    show (do let b ← TokenAmount.ofText s; return Value.amount b) = _
    rw [TokenAmount.ofText_of_numeral hs hlen, ha, TokenAmount.ofInt_units]
    rfl
  | @name c _ s hname hs =>
    show (do let d ← Choice.ofText c.family s; return Value.choice d) = _
    rw [Choice.ofText_of_lower (hfamily c.family rfl) hname hs]
    rfl
  | list h =>
    rw [coerceField_metadata_eq, Metadata.pairs_list, Metadata.elements_of_spells h]
    rfl
  | tuple h =>
    rw [coerceField_metadata_eq, Metadata.pairs_tuple, Metadata.elements_of_spells h]
    rfl
  | dict entries =>
    rw [coerceField_metadata_eq, Metadata.pairs_dict]
    rfl
  | absent => rfl

/-! ## Payloads -/

/-- Named values that spell each field of the payload, in any order. A field that may be left out can be
spelled so. -/
structure IsSpelling (given : List (String × Value)) (p : Payload) : Prop where
  known : ∀ g ∈ given, ∃ f ∈ p.variant.layout, f.name = g.1
  spelled : ∀ (i : Nat) (f : Field) (w : Value), p.variant.layout[i]? = some f →
    p.values[i]? = some w → ∃ v, argument given f = some v ∧ f.kind.Spells v w

/-- Arguments that are each brought to the value of their field. -/
theorem exists_values_of_arguments {given : List (String × Value)} {fields : List Field}
    {ws : List Value} (hlen : ws.length = fields.length)
    (h : ∀ (i : Nat) (f : Field) (w : Value), fields[i]? = some f → ws[i]? = some w →
      ∃ v, argument given f = some v ∧ coerceField f v = .ok w) :
    ∃ values, fields.mapM (argument given) = some values ∧ coerceFields fields values = .ok ws := by
  induction fields generalizing ws with
  | nil =>
    cases ws with
    | nil => exact ⟨[], rfl, rfl⟩
    | cons w ws => cases hlen
  | cons f fields ih =>
    cases ws with
    | nil => cases hlen
    | cons w ws =>
      obtain ⟨v, hv, hcoerce⟩ := h 0 f w rfl rfl
      obtain ⟨values, hvalues, hothers⟩ :=
        ih (Nat.succ.inj hlen) fun i g u hg hu => h (i + 1) g u hg hu
      refine ⟨v :: values, ?_, ?_⟩
      · rw [List.mapM_cons, hv, hvalues]
        rfl
      · rw [coerceFields, hcoerce, hothers]
        rfl

theorem build_of_spelling {p : Payload} (hp : p.IsComplete) {given : List (String × Value)}
    (h : IsSpelling given p) : build p.variant given = .ok p := by
  have hcoerced : ∀ (i : Nat) (f : Field) (w : Value), p.variant.layout[i]? = some f →
      p.values[i]? = some w → ∃ v, argument given f = some v ∧ coerceField f v = .ok w := by
    intro i f w hf hw
    obtain ⟨v, hv, hspells⟩ := h.spelled i f w hf hw
    have hfamily := families_of_layout p.variant f (List.mem_of_getElem? hf)
    exact ⟨v, hv, coerceField_of_spells hspells hfamily⟩
  obtain ⟨values, hvalues, hcoerce⟩ := exists_values_of_arguments hp hcoerced
  rw [build_of_call h.known hvalues, hcoerce]
  rfl

/-- The values under the names of their fields. -/
def named (p : Payload) (values : List Value) : List (String × Value) :=
  (p.variant.layout.map Field.name).zip values

theorem argument_cons {f g : Field} {w : Value} {given : List (String × Value)}
    (h : g.name ≠ f.name) : argument ((f.name, w) :: given) g = argument given g := by
  simp only [argument, List.lookup_cons, beq_false_of_ne h]

/-- A value is found by the name of its field, for names differ. -/
theorem argument_zip {fields : List Field} {values : List Value}
    (hnames : (fields.map Field.name).Nodup) {i : Nat} {f : Field} {v : Value}
    (hf : fields[i]? = some f) (hv : values[i]? = some v) :
    argument ((fields.map Field.name).zip values) f = some v := by
  induction fields generalizing values i with
  | nil => cases hf
  | cons e fields ih =>
    cases values with
    | nil => cases hv
    | cons u values =>
      rw [List.map_cons, List.nodup_cons] at hnames
      rw [List.map_cons, List.zip_cons_cons]
      cases i with
      | zero =>
        cases hf
        cases hv
        simp only [argument, List.lookup_cons_self]
      | succ i =>
        have hne : f.name ≠ e.name := by
          intro hname
          refine hnames.1 ?_
          rw [← hname]
          exact List.mem_map_of_mem (List.mem_of_getElem? hf)
        rw [argument_cons hne]
        exact ih hnames.2 hf hv

/-- Values that spell those of the payload, in their order. -/
theorem isSpelling_named {p : Payload} {values : List Value}
    (h : ∀ (i : Nat) (f : Field) (w : Value), p.variant.layout[i]? = some f → p.values[i]? = some w →
      ∃ v, values[i]? = some v ∧ f.kind.Spells v w) : IsSpelling (p.named values) p where
  known := by
    rintro ⟨name, v⟩ hg
    obtain ⟨f, hf, hname⟩ := List.mem_map.mp (List.of_mem_zip hg).1
    exact ⟨f, hf, hname⟩
  spelled := by
    intro i f w hf hw
    obtain ⟨v, hv, hspells⟩ := h i f w hf hw
    exact ⟨v, argument_zip p.variant.layout_names_nodup hf hv, hspells⟩

/-- All spellings of a payload build it, and the values of its own fields are one of them. So what is
signed and what is posted does not depend on how the caller spells the fields. -/
theorem build_spelled {p : Payload} (hp : p.IsComplete) (hcoerced : EachField Coerced p) :
    build p.variant (p.named p.values) = .ok p ∧
    ∀ given, IsSpelling given p → build p.variant given = .ok p := by
  have hown : IsSpelling (p.named p.values) p :=
    isSpelling_named fun i f w hf hw => ⟨w, hw, .own (hcoerced i f w hf hw)⟩
  exact ⟨build_of_spelling hp hown, fun given => build_of_spelling hp⟩

/-- Granting the right to manage the lists, up to nine units. -/
def entitling : Payload :=
  ⟨.tokenAuthority, [.int 1, .int 2, .int 1212101, .int 0, .choice (.authorityAction .grant),
    .choice (.authority .manageList), .address ⟨List.replicate 20 0xab, List.length_replicate⟩,
    .address .zero, .amount ⟨9, by decide⟩]⟩

/-- The same in other words, from the last field to the first. -/
def entitlingArguments : List (String × Value) :=
  [("value", .text " 009\n"), ("token", .buffer (Bytes.zeros 20)),
    ("authority_address", .text "0XaBabABABABABABABABABABABABABABABABABABAB"),
    ("authority_type", .text "manage_LIST"), ("action", .text "gRANT"), ("nonce", .int 0),
    ("chain_id", .int 1212101), ("recent_checkpoint", .int 2), ("recent_epoch", .int 1)]

theorem isSpelling_entitlingArguments : IsSpelling entitlingArguments entitling where
  known := by decide
  spelled := by
    have haction : (FieldKind.choice .authorityAction).Spells (.text "gRANT")
        (.choice (.authorityAction .grant)) :=
      .name (c := .authorityAction .grant) List.mem_cons_self (by decide)
    have hrole : (FieldKind.choice .authority).Spells (.text "manage_LIST")
        (.choice (.authority .manageList)) :=
      .name (c := .authority .manageList) (List.mem_cons_of_mem _ List.mem_cons_self) (by decide)
    have hdigits : ("aBabABABABABABABABABABABABABABABABABABAB".toList).map Char.toLower =
        Bytes.toHexChars (List.replicate 20 0xab) := by decide
    have hmarker : ['0', 'X'] ∈ Signer.markers := by decide
    have hnumeral : TokenAmount.IsNumeral " 009\n" [0, 0, 9] :=
      TokenAmount.isNumeral_iff.mpr (by decide)
    have hspelled : List.Forall₂ (fun f w => ∃ v, argument entitlingArguments f = some v ∧
        f.kind.Spells v w) entitling.variant.layout entitling.values :=
      .cons ⟨_, rfl, .own trivial⟩ (.cons ⟨_, rfl, .own trivial⟩ (.cons ⟨_, rfl, .own trivial⟩
        (.cons ⟨_, rfl, .own trivial⟩ (.cons ⟨_, rfl, haction⟩ (.cons ⟨_, rfl, hrole⟩
          (.cons ⟨_, rfl, .digits hmarker hdigits⟩ (.cons ⟨_, rfl, .buffer .zero⟩
            (.cons ⟨_, rfl, .numeral hnumeral (by decide) rfl⟩ .nil))))))))
    exact fun i f w => forall₂_getElem? hspelled

theorem build_entitling : entitling.IsComplete ∧ EachField Coerced entitling ∧
    build .tokenAuthority (entitling.named entitling.values) = .ok entitling ∧
    build .tokenAuthority entitlingArguments = .ok entitling := by
  have hcomplete : entitling.IsComplete := rfl
  have hcoerced : List.Forall₂ (fun f w => f.kind.Coerced w) entitling.variant.layout
      entitling.values :=
    .cons trivial (.cons trivial (.cons trivial (.cons trivial (.cons rfl
      (.cons rfl (.cons (.inr ⟨_, rfl⟩) (.cons (.inr ⟨_, rfl⟩)
        (.cons (.inr ⟨_, rfl⟩) .nil))))))))
  have heach : EachField Coerced entitling := (eachField_iff hcomplete).mpr hcoerced
  obtain ⟨hown, hspelled⟩ := build_spelled hcomplete heach
  exact ⟨hcomplete, heach, hown, hspelled _ isSpelling_entitlingArguments⟩

end Payload

end LedgerClient
