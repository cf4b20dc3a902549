import LedgerClient.Proofs.Client.Exchange
import LedgerClient.Proofs.Json.RoundTrip
import LedgerClient.Proofs.Payload.Spelling
import LedgerClient.Proofs.Signature
import LedgerClient.Proofs.Text.Utf8

/-!
# What is posted is what was signed

A payload whose fields hold values of their declared types is written on the wire without loss: each
field is brought back to its value by the constructor, and the body is brought back by the JSON
reader. The body holds the signature beside the fields, and it can be told apart from them.
-/

namespace LedgerClient

/-- The values that a field of a kind is declared to hold. -/
inductive FieldKind.Declares : FieldKind → Value → Prop where
  | word {n : Nat} (h : n < 2 ^ 64) : Declares .word (.int n)
  | amount (a : TokenAmount) : Declares .amount (.amount a)
  | address (a : Address) : Declares .address (.address a)
  | text (s : String) : Declares .text (.text s)
  | choice (c : Choice) : Declares (.choice c.family) (.choice c)
  | metadata (entries : List (String × String)) :
      Declares .metadata (.tuple (entries.map Content.entryPair))
  | absent : Declares .optionalText .null
  | note (s : String) : Declares .optionalText (.text s)

namespace Content

/-- An entry as it stands in a body. -/
def entryRecord (pair : String × String) : Value :=
  Value.record [("key", .text pair.1), ("value", .text pair.2)]

theorem plain_entryRecord (pair : String × String) : Json.Plain 1 (entryRecord pair) := by
  refine .record (by decide : ["key", "value"].Nodup) ?_
  intro field hfield
  rcases List.mem_cons.mp hfield with rfl | hfield
  · exact .text pair.1
  · rw [List.mem_singleton.mp hfield]
    exact .text pair.2

theorem spells_entryRecord (pair : String × String) :
    Metadata.ItemSpells (entryRecord pair) (entryPair pair) :=
  .dict (e := ⟨.whole pair.1, .whole pair.2⟩) rfl rfl

end Content

namespace Signature

theorem plain_scalars (sig : Signature) : ∀ e ∈ [("r", Value.text (Integer.hexadecimal sig.r)),
    ("s", Value.text (Integer.hexadecimal sig.s))], Json.Plain 1 e.2 := by
  intro e he
  rcases List.mem_cons.mp he with rfl | he
  · exact .text _
  · rw [List.mem_singleton.mp he]
    exact .text _

/-- The indicator is the one number of a signature on the wire. -/
theorem plain_toDict {sig : Signature} (hv : sig.v.natAbs < Integer.textBound) :
    Json.Plain 2 sig.toDict := by
  refine .record (by decide : ["r", "s", "v"].Nodup) ?_
  intro e he
  have hsplit : e ∈ [("r", Value.text (Integer.hexadecimal sig.r)),
      ("s", Value.text (Integer.hexadecimal sig.s))] ++ [("v", .int sig.v)] := he
  rcases List.mem_append.mp hsplit with he | he
  · exact plain_scalars sig e he
  · rw [List.mem_singleton.mp he]
    exact .int hv

end Signature

namespace Payload

open FieldKind
open Content (entryPair entryRecord plain_entryRecord spells_entryRecord)

theorem wireValues_entryPairs (entries : List (String × String)) :
    wireValues (entries.map entryPair) = entries.map entryRecord := by
  induction entries with
  | nil => rfl
  | cons e entries ih =>
    rw [List.map_cons, wireValues, ih]
    rfl

theorem plain_wireValue {kind : FieldKind} {v : Value} (h : kind.Declares v) :
    Json.Plain 2 (wireValue v) := by
  cases h with
  | word hn => exact .int (Integer.lt_textBound (Nat.lt_of_lt_of_le hn (by decide)))
  | amount a => exact .text a.wire
  | address a => exact .text a.checksum
  | text s => exact .text s
  | choice c => exact .text c.label
  | metadata entries =>
    rw [wireValue, wireValues_entryPairs]
    refine .list fun v hv => ?_
    obtain ⟨pair, -, rfl⟩ := List.mem_map.mp hv
    exact plain_entryRecord pair
  | absent => exact .null
  | note s => exact .text s

/-- What is on the wire spells the value of the field. -/
theorem spells_wireValue {kind : FieldKind} {v : Value} (h : kind.Declares v) :
    kind.Spells (wireValue v) v := by
  cases h with
  | word hn => exact .own trivial
  | amount a =>
    obtain ⟨digits, hdigits, hlen, hvalue⟩ := a.exists_numeral_wire
    exact .numeral hdigits hlen hvalue
  | address a =>
    obtain ⟨digits, htext, hdigits⟩ := a.exists_digits_checksum
    rw [wireValue, htext]
    exact .digits (List.mem_cons_of_mem _ List.mem_cons_self) hdigits
  | text s => exact .own trivial
  | choice c => exact .name List.mem_cons_self rfl
  | metadata entries =>
    rw [wireValue, wireValues_entryPairs]
    refine .list ?_
    rw [List.forall₂_map_left_iff, List.forall₂_map_right_iff, List.forall₂_same]
    exact fun pair _ => spells_entryRecord pair
  | absent => exact .own trivial
  | note s => exact .own trivial

/-! ## The fields of a body -/

/-- Each field holds a value of its declared type. -/
def HasDeclaredTypes (p : Payload) : Prop :=
  List.Forall₂ (fun f v => f.kind.Declares v) p.variant.layout p.values

theorem signature_not_mem_layout (variant : Variant) :
    "signature" ∉ variant.layout.map Field.name := by
  cases variant <;> decide

theorem map_fst_wireEntries {p : Payload} (h : p.IsComplete) :
    p.wireEntries.map Prod.fst = p.variant.layout.map Field.name := by
  rw [wireEntries, List.map_fst_zip]
  rw [List.length_map, List.length_map]
  exact Nat.le_of_eq h.symm

theorem isComplete_of_hasDeclaredTypes {p : Payload} (h : p.HasDeclaredTypes) : p.IsComplete :=
  h.length_eq.symm

/-- The fields on the wire spell the payload. -/
theorem isSpelling_wireEntries {p : Payload} (h : p.HasDeclaredTypes) :
    IsSpelling p.wireEntries p := by
  refine isSpelling_named fun i f v hf hv => ⟨wireValue v, ?_, ?_⟩
  · rw [List.getElem?_map, hv]
    rfl
  · exact spells_wireValue (forall₂_getElem? h hf hv)

theorem build_wireEntries {p : Payload} (h : p.HasDeclaredTypes) :
    build p.variant p.wireEntries = .ok p :=
  build_of_spelling (isComplete_of_hasDeclaredTypes h) (isSpelling_wireEntries h)

/-! ## The whole body -/

/-- A named value other than the signature. -/
def bodyField? : Value × Value → Option (String × Value)
  | (.text name, v) => if name = "signature" then none else some (name, v)
  | _ => none

/-- The named values of a body without its signature. -/
def fieldsOfBody (body : Value) : List (String × Value) :=
  match body with
  | .dict entries => entries.filterMap bodyField?
  | _ => []

theorem filterMap_bodyField? {fields : List (String × Value)}
    (h : "signature" ∉ fields.map Prod.fst) :
    (fields.map fun (name, v) => (Value.text name, v)).filterMap bodyField? = fields := by
  induction fields with
  | nil => rfl
  | cons field fields ih =>
    rw [List.map_cons, List.mem_cons, not_or] at h
    have hfield : bodyField? (Value.text field.1, field.2) = some field := if_neg (Ne.symm h.1)
    rw [List.map_cons, List.filterMap_cons_some hfield, ih h.2]

theorem signature_not_mem_wireEntries {p : Payload} (h : p.IsComplete) :
    "signature" ∉ p.wireEntries.map Prod.fst := by
  rw [map_fst_wireEntries h]
  exact signature_not_mem_layout p.variant

theorem fieldsOfBody_toRequest {p : Payload} (h : p.IsComplete) (sig : Signature) :
    fieldsOfBody (p.toRequest sig) = p.wireEntries := by
  rw [toRequest, requestOf, Value.record, fieldsOfBody, List.map_append, List.filterMap_append,
    filterMap_bodyField? (signature_not_mem_wireEntries h)]
  exact List.append_nil _

theorem lookup_record {name : String} (v : Value) {fields : List (String × Value)}
    (h : name ∉ fields.map Prod.fst) :
    (Value.record (fields ++ [(name, v)])).require name = .ok v := by
  have hlookup : Value.lookup name ((fields ++ [(name, v)]).map fun (name, v) => (Value.text name, v)) =
      some v := by
    induction fields with
    | nil => exact Value.lookup_cons_self name v []
    | cons field fields ih =>
      rw [List.map_cons, List.mem_cons, not_or] at h
      exact (Value.lookup_cons_ne field.2 _ (Ne.symm h.1)).trans (ih h.2)
  rw [Value.record, Value.require, hlookup]

theorem plain_of_mem_wireEntries {p : Payload} (h : p.HasDeclaredTypes) {field : String × Value}
    (hfield : field ∈ p.wireEntries) : Json.Plain 2 field.2 := by
  obtain ⟨v, hv, heq⟩ := List.mem_map.mp (List.of_mem_zip hfield).2
  have hplain : ∀ {fields : List Field} {values : List Value},
      List.Forall₂ (fun f v => f.kind.Declares v) fields values → v ∈ values →
        Json.Plain 2 (wireValue v) := by
    intro fields values hdeclared hmem
    induction hdeclared with
    | nil => cases hmem
    | cons hfirst _ ih =>
      rcases List.mem_cons.mp hmem with rfl | hmem
      · exact plain_wireValue hfirst
      · exact ih hmem
  rw [← heq]
  exact hplain h hv

/-- A body is plain when its fields are and the indicator has a decimal text. -/
theorem plain_toRequest_of_fields {p : Payload} (hp : p.IsComplete)
    (h : ∀ field ∈ p.wireEntries, Json.Plain 2 field.2) {sig : Signature}
    (hv : sig.v.natAbs < Integer.textBound) : Json.Plain 3 (p.toRequest sig) := by
  refine .record ?_ ?_
  · rw [List.map_append, List.nodup_append, map_fst_wireEntries hp]
    refine ⟨p.variant.layout_names_nodup, (by decide : ["signature"].Nodup), ?_⟩
    intro name hname other hother heq
    rw [heq, List.mem_singleton.mp hother] at hname
    exact signature_not_mem_layout p.variant hname
  · intro field hfield
    rcases List.mem_append.mp hfield with hfield | hfield
    · exact h field hfield
    · rw [List.mem_singleton.mp hfield]
      exact Signature.plain_toDict hv

theorem plain_toRequest {p : Payload} (h : p.HasDeclaredTypes) {sig : Signature}
    (hv : sig.v.natAbs < Integer.textBound) : Json.Plain 3 (p.toRequest sig) :=
  plain_toRequest_of_fields (isComplete_of_hasDeclaredTypes h)
    (fun _ => plain_of_mem_wireEntries h) hv

theorem bodyText_of_write {levels : Nat} {body : Value} {text : String} (h : Json.Plain levels body)
    (hbody : body.isNull = false) (hwrite : Json.write body = .ok text) :
    Client.bodyText body = .ok (some text) := by
  rw [Client.bodyText, hbody]
  show (do
    let s ← Json.write body
    if Json.holdsTorn body then .error .unencodable else return some s) = _
  rw [hwrite, Json.holdsTorn_of_plain h]
  rfl

/-- A plain body is written. -/
theorem exists_bodyText {levels : Nat} {body : Value} (h : Json.Plain levels body)
    (hbody : body.isNull = false) : ∃ text, Client.bodyText body = .ok (some text) := by
  obtain ⟨text, hwrite, -⟩ := Json.exists_write h
  exact ⟨text, bodyText_of_write h hbody hwrite⟩

/-- A body without a text is the error of the request that would have posted it. -/
theorem bodyText_of_textBound_le {p : Payload} (h : p.HasDeclaredTypes) {sig : Signature}
    (hv : Integer.textBound ≤ sig.v.natAbs) :
    Client.bodyText (p.toRequest sig) = .error .badValue := by
  have hindicator : Json.write (.int sig.v) = .error .badValue := by
    rw [Json.write, Value.integerText_of_le hv]
  have hsignature : Json.write sig.toDict = .error .badValue :=
    Json.write_record_error sig.plain_scalars "v" hindicator
  have hfields : ∀ e ∈ p.wireEntries, Json.Plain 2 e.2 := fun e he => plain_of_mem_wireEntries h he
  show (do
    let s ← Json.write (p.toRequest sig)
    if Json.holdsTorn (p.toRequest sig) then .error .unencodable else return some s) = _
  rw [toRequest, requestOf, Json.write_record_error hfields "signature" hsignature]
  rfl

/-- The parts of a body are the payload and the signature that it was made of. When the indicator has a
decimal text, the body that is posted is read as the object that was written; otherwise nothing is
posted. -/
theorem toRequest_round_trip {p : Payload} {sig : Signature} (hp : p.HasDeclaredTypes)
    (hr : 0 ≤ sig.r) (hs : 0 ≤ sig.s) :
    (sig.v.natAbs < Integer.textBound → ∃ text,
      Client.bodyText (p.toRequest sig) = .ok (some text) ∧
        ∀ url, Response.parseBody (Text.utf8 text) url = .ok (p.toRequest sig)) ∧
    (Integer.textBound ≤ sig.v.natAbs → Client.bodyText (p.toRequest sig) = .error .badValue ∧
      ∀ (c : Client) (path decoder params : Value) (url : String),
        c.config.requestUrl path params = .ok url →
          Action.Leaves (c.send (.text "POST") path (p.toRequest sig) decoder params)
            (.error (.fault .badValue)) []) ∧
    build p.variant (fieldsOfBody (p.toRequest sig)) = .ok p ∧
    ∃ entry, (p.toRequest sig).require "signature" = .ok entry ∧ Signature.ofDict entry = .ok sig := by
  have hcomplete := isComplete_of_hasDeclaredTypes hp
  refine ⟨fun hv => ?_, fun hv => ?_, ?_, sig.toDict, ?_, Signature.ofDict_toDict hr hs⟩
  · have hplain := plain_toRequest hp hv
    obtain ⟨text, hwrite, -⟩ := Json.exists_write hplain
    refine ⟨text, bodyText_of_write hplain rfl hwrite, fun url => ?_⟩
    rw [Response.parseBody, Text.ofUtf8_utf8]
    simp only [Json.read_of_write hplain (by decide) hwrite]
  · have hbody := bodyText_of_textBound_le hp hv
    exact ⟨hbody, fun c path decoder params url hurl =>
      Client.leaves_send_of_unwritable "POST" decoder (.inr ⟨⟨url, hurl⟩, hbody⟩)⟩
  · rw [fieldsOfBody_toRequest hcomplete, build_wireEntries hp]
  · exact lookup_record sig.toDict (signature_not_mem_wireEntries hcomplete)

/-- Pausing a token in epoch 1 after checkpoint 2. -/
def pausing : Payload :=
  ⟨.tokenPause, [.int 1, .int 2, .int 1212101, .int 0, .choice (.pauseAction .pause),
    .address Address.zero]⟩

theorem hasDeclaredTypes_pausing : pausing.HasDeclaredTypes :=
  .cons (.word (by decide)) (.cons (.word (by decide)) (.cons (.word (by decide))
    (.cons (.word (by decide)) (.cons (.choice (.pauseAction .pause))
      (.cons (.address Address.zero) .nil)))))

/-- The greatest scalars that fit 32 bytes. -/
def greatest : Signature := ⟨2 ^ 256 - 1, 2 ^ 256 - 1, 27⟩

theorem toRequest_greatest : ∃ text,
    Client.bodyText (pausing.toRequest greatest) = .ok (some text) ∧
      Response.parseBody (Text.utf8 text) "" = .ok (pausing.toRequest greatest) := by
  have hv : greatest.v.natAbs < Integer.textBound := Integer.lt_textBound (by decide)
  have hr : 0 ≤ greatest.r := by decide
  have hs : 0 ≤ greatest.s := by decide
  obtain ⟨hread, -⟩ := toRequest_round_trip hasDeclaredTypes_pausing hr hs
  obtain ⟨text, hbody, hparse⟩ := hread hv
  exact ⟨text, hbody, hparse ""⟩

/-- The least indicator without a decimal text. -/
def endless : Signature := ⟨1, 1, Integer.textBound⟩

theorem bodyText_endless : pausing.HasDeclaredTypes ∧ 0 ≤ endless.r ∧ 0 ≤ endless.s ∧
    Client.bodyText (pausing.toRequest endless) = .error .badValue :=
  ⟨hasDeclaredTypes_pausing, by decide, by decide,
    bodyText_of_textBound_le hasDeclaredTypes_pausing (Nat.le_refl _)⟩

end Payload

end LedgerClient
