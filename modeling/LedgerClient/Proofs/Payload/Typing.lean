import LedgerClient.Proofs.Payload.Canonical
import LedgerClient.Proofs.Signer.Payload
import Mathlib.Data.List.Forall2

/-!
# What building a payload makes sure of

Building brings addresses, amounts and texts that name a choice to their typed form. A choice that is
given as such is kept whatever its family, and so are the keys and values of metadata: whether a
payload is well typed is decided by what the caller gave there. The encoder asks of a choice only that
it is one, so the name in the signed bytes may be that of another family.
-/

namespace LedgerClient

namespace FieldKind

/-! ## Typed values and accurate arguments -/

/-- The value has the type that the field declares, or is absent. Numbers and texts are left to the
encoder. -/
def WellTyped : FieldKind → Value → Prop
  | .address, v => v = .null ∨ ∃ a, v = .address a
  | .amount, v => v = .null ∨ ∃ a, v = .amount a
  | .choice family, v => v = .null ∨ ∃ c ∈ family.members, v = .choice c
  | .metadata, v => ∃ entries : List Metadata.Entry, v = .tuple (entries.map Metadata.Entry.toValue)
  | _, _ => True

/-- What building makes sure of by itself. -/
def Coerced : FieldKind → Value → Prop
  | .address, v => v = .null ∨ ∃ a, v = .address a
  | .amount, v => v = .null ∨ ∃ a, v = .amount a
  | .choice _, v => v.text? = none
  | .metadata, v => ∃ entries : List (Value × Value), v = .tuple (entries.map fun e => .pair e.1 e.2)
  | _, _ => True

def isText (v : Value) : Bool := v.text?.isSome

theorem exists_script_of_isText {v : Value} (h : isText v = true) : ∃ s : Script, v = s.toValue := by
  cases v with
  | text s => exact ⟨.whole s, rfl⟩
  | torn t => exact ⟨.torn t, rfl⟩
  | _ => cases h

theorem isText_toValue (s : Script) : isText s.toValue = true := by
  rw [isText, Script.text?_toValue]
  rfl

/-- An entry of texts; a dictionary is turned into one. -/
def isAccurateElement : Value → Bool
  | .pair key value => isText key && isText value
  | _ => true

/-- The metadata that a caller gives holds texts only. -/
def isAccurateMetadata : Value → Bool
  | .dict entries => entries.all fun e => isText e.1 && isText e.2
  | .list items | .tuple items => items.all isAccurateElement
  | _ => true

/-- A caller's value of which building makes a well-typed one. -/
def Accurate : FieldKind → Value → Prop
  | .choice family, v => v = .null ∨ isText v = true ∨ ∃ c ∈ family.members, v = .choice c
  | .metadata, v => isAccurateMetadata v = true
  | _, _ => True

end FieldKind

namespace Metadata

open FieldKind

/-- The pairs of some entries are entries of texts exactly when all keys and values are texts. -/
theorem exists_entries_iff (entries : List (Value × Value)) :
    (∃ es : List Entry, entries.map (fun e => Value.pair e.1 e.2) = es.map Entry.toValue) ↔
      ∀ e ∈ entries, isText e.1 = true ∧ isText e.2 = true := by
  constructor
  · rintro ⟨es, hes⟩ e he
    have hmem : Value.pair e.1 e.2 ∈ es.map Entry.toValue := by
      rw [← hes]
      exact List.mem_map.mpr ⟨e, he, rfl⟩
    obtain ⟨entry, -, hentry⟩ := List.mem_map.mp hmem
    obtain ⟨hkey, hvalue⟩ := Value.pair.inj hentry
    rw [← hkey, ← hvalue]
    exact ⟨isText_toValue _, isText_toValue _⟩
  · intro h
    induction entries with
    | nil => exact ⟨[], rfl⟩
    | cons e rest ih =>
      obtain ⟨es, hes⟩ := ih fun e he => h e (List.mem_cons_of_mem _ he)
      obtain ⟨key, value⟩ := e
      obtain ⟨hkey, hvalue⟩ := h (key, value) List.mem_cons_self
      obtain ⟨k, rfl⟩ := exists_script_of_isText hkey
      obtain ⟨x, rfl⟩ := exists_script_of_isText hvalue
      refine ⟨⟨k, x⟩ :: es, ?_⟩
      rw [List.map_cons, List.map_cons, hes]
      rfl

/-- An element is a pair, and its parts are texts unless the caller gave a pair of other values. -/
theorem element_eq_ok {item w : Value} (h : element item = .ok w) :
    ∃ e : Value × Value, w = .pair e.1 e.2 ∧
      ((isText e.1 = true ∧ isText e.2 = true) ↔ isAccurateElement item = true) := by
  unfold element at h
  split at h
  · next key value =>
    cases h
    exact ⟨(key, value), rfl, by rw [isAccurateElement, Bool.and_eq_true]⟩
  · simp only [bind_eq_ok, pure_eq_ok] at h
    obtain ⟨e, -, rfl⟩ := h
    exact ⟨(e.key.toValue, e.value.toValue), rfl,
      iff_of_true ⟨isText_toValue _, isText_toValue _⟩ rfl⟩
  · cases h

theorem elements_eq_ok {items ws : List Value} (h : elements items = .ok ws) :
    ∃ entries : List (Value × Value), ws = entries.map (fun e => Value.pair e.1 e.2) ∧
      ((∀ e ∈ entries, isText e.1 = true ∧ isText e.2 = true) ↔
        items.all isAccurateElement = true) := by
  induction items generalizing ws with
  | nil =>
    cases h
    exact ⟨[], rfl, iff_of_true (List.forall_mem_nil _) rfl⟩
  | cons item items ih =>
    simp only [elements, bind_eq_ok, pure_eq_ok] at h
    obtain ⟨w, hw, others, hothers, rfl⟩ := h
    obtain ⟨e, rfl, he⟩ := element_eq_ok hw
    obtain ⟨entries, rfl, hentries⟩ := ih hothers
    refine ⟨e :: entries, rfl, ?_⟩
    rw [List.forall_mem_cons, List.all_cons, Bool.and_eq_true, he, hentries]

/-- Metadata becomes pairs; they hold texts exactly when the caller's metadata did. -/
theorem pairs_eq_ok {v : Value} {ws : List Value} (h : pairs v = .ok ws) :
    ∃ entries : List (Value × Value), ws = entries.map (fun e => Value.pair e.1 e.2) ∧
      ((∀ e ∈ entries, isText e.1 = true ∧ isText e.2 = true) ↔ isAccurateMetadata v = true) := by
  have hnone : ([] : List Value) = ([] : List (Value × Value)).map (fun e => Value.pair e.1 e.2) := rfl
  unfold pairs at h
  split at h
  · next hempty =>
    cases h
    -- Every empty value counts as no metadata, whatever its type is.
    have haccurate : isAccurateMetadata v = true := by
      cases v with
      | dict entries => cases entries with
        | nil => rfl
        | cons e rest => cases hempty
      | list items => cases items with
        | nil => rfl
        | cons x rest => cases hempty
      | tuple items => cases items with
        | nil => rfl
        | cons x rest => cases hempty
      | _ => rfl
    exact ⟨[], hnone, iff_of_true (List.forall_mem_nil _) haccurate⟩
  · split at h
    · cases h
      refine ⟨_, rfl, ?_⟩
      simp only [isAccurateMetadata, List.all_eq_true, Bool.and_eq_true]
    · exact elements_eq_ok h
    · exact elements_eq_ok h
    · cases h

end Metadata

namespace Payload

open FieldKind

/-! ## One field -/

theorem mem_members_of_ofText {family : Family} {s : String} {c : Choice}
    (h : Choice.ofText family s = .ok c) : c ∈ family.members := by
  unfold Choice.ofText at h
  simp only at h
  split at h
  · next d hd =>
    cases h
    exact List.mem_of_find?_eq_some hd
  · cases h

theorem coerceField_choice {f : Field} {family : Family} (hkind : f.kind = .choice family)
    {v w : Value} (h : coerceField f v = .ok w) :
    (∃ c, isText v = true ∧ w = .choice c ∧ c ∈ family.members) ∨ (isText v = false ∧ w = v) := by
  obtain ⟨name, kind, isOptional⟩ := f
  obtain rfl : kind = .choice family := hkind
  cases v with
  | text s =>
    simp only [coerceField, bind_eq_ok, pure_eq_ok] at h
    obtain ⟨c, hc, rfl⟩ := h
    exact .inl ⟨c, rfl, rfl, mem_members_of_ofText hc⟩
  | torn t =>
    simp only [coerceField, bind_eq_ok, pure_eq_ok] at h
    obtain ⟨c, hc, rfl⟩ := h
    exact .inl ⟨c, rfl, rfl, mem_members_of_ofText hc⟩
  | _ =>
    cases h
    exact .inr ⟨rfl, rfl⟩

theorem coerceField_address {f : Field} (hkind : f.kind = .address) {v w : Value}
    (h : coerceField f v = .ok w) : w = .null ∨ ∃ a, w = .address a := by
  obtain ⟨name, kind, isOptional⟩ := f
  obtain rfl : kind = .address := hkind
  cases v with
  | null =>
    cases h
    exact .inl rfl
  | _ =>
    simp only [coerceField, bind_eq_ok, pure_eq_ok] at h
    obtain ⟨a, -, rfl⟩ := h
    exact .inr ⟨a, rfl⟩

theorem coerceField_amount {f : Field} (hkind : f.kind = .amount) {v w : Value}
    (h : coerceField f v = .ok w) : w = .null ∨ ∃ a, w = .amount a := by
  obtain ⟨name, kind, isOptional⟩ := f
  obtain rfl : kind = .amount := hkind
  cases v with
  | null =>
    cases h
    exact .inl rfl
  | _ =>
    simp only [coerceField, bind_eq_ok, pure_eq_ok] at h
    obtain ⟨a, -, rfl⟩ := h
    exact .inr ⟨a, rfl⟩

theorem coerceField_metadata {f : Field} (hkind : f.kind = .metadata) {v w : Value}
    (h : coerceField f v = .ok w) : ∃ ws, Metadata.pairs v = .ok ws ∧ w = .tuple ws := by
  obtain ⟨name, kind, isOptional⟩ := f
  obtain rfl : kind = .metadata := hkind
  rw [coerceField_metadata_eq, bind_eq_ok] at h
  obtain ⟨ws, hws, hw⟩ := h
  cases hw
  exact ⟨ws, hws, rfl⟩

/-- The typed form of a field, case by case on its kind. -/
theorem coerceField_typed {f : Field} {v w : Value} (h : coerceField f v = .ok w) :
    f.kind.Coerced w ∧ (f.kind.WellTyped w ↔ f.kind.Accurate v) := by
  cases hkind : f.kind with
  | address =>
    have hw := coerceField_address hkind h
    exact ⟨hw, iff_of_true hw trivial⟩
  | amount =>
    have hw := coerceField_amount hkind h
    exact ⟨hw, iff_of_true hw trivial⟩
  | choice family =>
    rcases coerceField_choice hkind h with ⟨c, htext, rfl, hc⟩ | ⟨htext, rfl⟩
    · exact ⟨rfl, iff_of_true (.inr ⟨c, hc, rfl⟩) (.inr (.inl htext))⟩
    · refine ⟨?_, ?_⟩
      · exact Option.isNone_iff_eq_none.mp (Option.isSome_eq_false_iff.mp htext)
      · show _ ∨ _ ↔ _ ∨ _ ∨ _
        rw [htext]
        simp only [Bool.false_eq_true, false_or]
  | metadata =>
    obtain ⟨ws, hws, rfl⟩ := coerceField_metadata hkind h
    obtain ⟨entries, rfl, hentries⟩ := Metadata.pairs_eq_ok hws
    refine ⟨⟨entries, rfl⟩, ?_⟩
    calc FieldKind.metadata.WellTyped (.tuple (entries.map fun e => .pair e.1 e.2))
        ↔ ∃ es : List Metadata.Entry,
            entries.map (fun e => Value.pair e.1 e.2) = es.map Metadata.Entry.toValue :=
          exists_congr fun es => Value.tuple.injEq _ _ ▸ Iff.rfl
      _ ↔ ∀ e ∈ entries, isText e.1 = true ∧ isText e.2 = true :=
          Metadata.exists_entries_iff entries
      _ ↔ FieldKind.metadata.Accurate v := hentries
  | word => exact ⟨trivial, iff_of_true trivial trivial⟩
  | text => exact ⟨trivial, iff_of_true trivial trivial⟩
  | optionalText => exact ⟨trivial, iff_of_true trivial trivial⟩

/-! ## All fields -/

theorem getElem?_of_mapM {α β : Type} {f : α → Option β} {xs : List α} {ys : List β}
    (h : xs.mapM f = some ys) (i : Nat) : ys[i]? = xs[i]?.bind f := by
  induction xs generalizing ys i with
  | nil =>
    cases h
    rfl
  | cons x xs ih =>
    simp only [List.mapM_cons, Option.bind_eq_bind, Option.bind_eq_some_iff, Option.pure_def,
      Option.some.injEq] at h
    obtain ⟨y, hy, others, hothers, rfl⟩ := h
    cases i with
    | zero => exact hy.symm
    | succ i => exact ih hothers i

theorem getElem?_of_coerceFields {fields : List Field} {values coerced : List Value}
    (h : coerceFields fields values = .ok coerced) {i : Nat} {f : Field} {v : Value}
    (hf : fields[i]? = some f) (hv : values[i]? = some v) :
    ∃ w, coerced[i]? = some w ∧ coerceField f v = .ok w := by
  induction fields generalizing values coerced i with
  | nil => cases hf
  | cons g fields ih =>
    cases values with
    | nil => cases hv
    | cons u rest =>
      simp only [coerceFields, bind_eq_ok, pure_eq_ok] at h
      obtain ⟨first, hfirst, others, hothers, rfl⟩ := h
      cases i with
      | zero =>
        cases hf
        cases hv
        exact ⟨first, rfl, hfirst⟩
      | succ i => exact ih hothers hf hv

/-- Each field of a payload that was built keeps the typed form of its argument. -/
theorem getElem?_of_build {variant : Variant} {given : List (String × Value)} {p : Payload}
    (h : build variant given = .ok p) {i : Nat} {f : Field} (hf : variant.layout[i]? = some f) :
    ∃ v w, argument given f = some v ∧ p.values[i]? = some w ∧ coerceField f v = .ok w := by
  simp only [build] at h
  split at h
  · cases h
  · split at h
    · cases h
    · next values hvalues =>
      simp only [bind_eq_ok, pure_eq_ok] at h
      obtain ⟨coerced, hcoerced, rfl⟩ := h
      have hi : i < values.length := by
        rw [length_of_mapM hvalues]
        exact (List.getElem?_eq_some_iff.mp hf).1
      have hargument := getElem?_of_mapM hvalues i
      rw [hf, List.getElem?_eq_getElem hi] at hargument
      obtain ⟨w, hw, hcoerce⟩ :=
        getElem?_of_coerceFields hcoerced hf (List.getElem?_eq_getElem hi)
      exact ⟨values[i], w, hargument.symm, hw, hcoerce⟩

theorem variant_of_build {variant : Variant} {given : List (String × Value)} {p : Payload}
    (h : build variant given = .ok p) : p.variant = variant := by
  simp only [build] at h
  split at h
  · cases h
  · split at h
    · cases h
    · simp only [bind_eq_ok, pure_eq_ok] at h
      obtain ⟨coerced, -, rfl⟩ := h
      rfl

/-- Some property of the kind holds of the value in each field. -/
def EachField (holds : FieldKind → Value → Prop) (p : Payload) : Prop :=
  ∀ (i : Nat) (f : Field) (w : Value),
    p.variant.layout[i]? = some f → p.values[i]? = some w → holds f.kind w

theorem forall₂_getElem? {α β : Type} {R : α → β → Prop} {xs : List α} {ys : List β}
    (h : List.Forall₂ R xs ys) {i : Nat} {x : α} {y : β} (hx : xs[i]? = some x)
    (hy : ys[i]? = some y) : R x y := by
  obtain ⟨hi, rfl⟩ := List.getElem?_eq_some_iff.mp hx
  obtain ⟨hj, rfl⟩ := List.getElem?_eq_some_iff.mp hy
  exact h.get hi hj

/-- Fields and values side by side. -/
theorem eachField_iff {holds : FieldKind → Value → Prop} {p : Payload} (hp : p.IsComplete) :
    EachField holds p ↔
      List.Forall₂ (fun f w => holds f.kind w) p.variant.layout p.values := by
  constructor
  · intro h
    refine List.forall₂_iff_get.mpr ⟨hp.symm, fun i hi hj => ?_⟩
    exact h i _ _ (List.getElem?_eq_getElem hi) (List.getElem?_eq_getElem hj)
  · intro h i f w
    exact forall₂_getElem? h

section

variable {variant : Variant} {given : List (String × Value)} {p : Payload}
  (h : build variant given = .ok p)

include h

/-- The value in a field of a payload that was built, and the argument that it comes from. -/
theorem typed_of_build {i : Nat} {f : Field} {v w : Value} (hf : variant.layout[i]? = some f)
    (hv : argument given f = some v) (hw : p.values[i]? = some w) :
    f.kind.Coerced w ∧ (f.kind.WellTyped w ↔ f.kind.Accurate v) := by
  obtain ⟨v', w', hv', hw', hcoerce⟩ := getElem?_of_build h hf
  obtain rfl : v' = v := Option.some.inj (hv'.symm.trans hv)
  obtain rfl : w' = w := Option.some.inj (hw'.symm.trans hw)
  exact coerceField_typed hcoerce

theorem coerced_of_build : EachField Coerced p := by
  obtain rfl := variant_of_build h
  intro i f w hf hw
  obtain ⟨v, -, hv, -⟩ := getElem?_of_build h hf
  exact (typed_of_build h hf hv hw).1

theorem wellTyped_iff_of_build :
    EachField WellTyped p ↔
      ∀ f ∈ variant.layout, ∀ v, argument given f = some v → f.kind.Accurate v := by
  obtain rfl := variant_of_build h
  constructor
  · intro htyped f hmem v hv
    obtain ⟨i, hf⟩ := List.mem_iff_getElem?.mp hmem
    obtain ⟨-, w, -, hw, -⟩ := getElem?_of_build h hf
    exact (typed_of_build h hf hv hw).2.mp (htyped i f w hf hw)
  · intro haccurate i f w hf hw
    obtain ⟨v, -, hv, -⟩ := getElem?_of_build h hf
    exact (typed_of_build h hf hv hw).2.mpr (haccurate f (List.mem_of_getElem? hf) v hv)

end

/-! ## Names in the signed bytes -/

theorem getElem?_of_contentsOf {fields : List Field} {values : List Value} {cs : List Content}
    (h : contentsOf fields values = some cs) {i : Nat} {f : Field} (hf : fields[i]? = some f) :
    ∃ v c, values[i]? = some v ∧ cs[i]? = some c ∧ f.kind.content? v = some c := by
  induction fields generalizing values cs i with
  | nil => cases hf
  | cons g fields ih =>
    cases values with
    | nil => cases h
    | cons v rest =>
      obtain ⟨c, others, hc, hothers, rfl⟩ := contentsOf_cons h
      cases i with
      | zero =>
        cases hf
        exact ⟨v, c, rfl, rfl, hc⟩
      | succ i => exact ih hothers hf

/-- A choice field of an encoded payload holds a choice of whatever family, or a member of another
enumeration that holds a text. -/
theorem exists_name_of_contents? {p : Payload} {cs : List Content} (h : p.contents? = some cs)
    {i : Nat} {f : Field} {family : Family} (hf : p.variant.layout[i]? = some f)
    (hkind : f.kind = .choice family) :
    ∃ w label, p.values[i]? = some w ∧ name? w = some label ∧ cs[i]? = some (.name label) := by
  obtain ⟨w, content, hw, hcontent, hsays⟩ := getElem?_of_contentsOf h hf
  rw [hkind] at hsays
  obtain ⟨label, hlabel, rfl⟩ := Option.map_eq_some_iff.mp hsays
  exact ⟨w, label, hw, hlabel, hcontent⟩

/-- A payload that was built holds addresses and amounts where they belong, no text in place of a
choice, and pairs as metadata; it is well typed exactly when the caller gave no choice of another
family, no other value in place of a choice and no metadata that is not text. What is signed at a
choice is the name that the value there has, and the value is a choice of the field's own family exactly
when the argument was accurate. -/
theorem build_typed {variant : Variant} {given : List (String × Value)} {p : Payload}
    (h : build variant given = .ok p) :
    EachField Coerced p ∧
    (EachField WellTyped p ↔
      ∀ f ∈ variant.layout, ∀ v, argument given f = some v → f.kind.Accurate v) ∧
    (∀ backend key sig, Signer.signPayload backend p key = .ok sig → ∃ bs, p.encode = .ok bs) ∧
    ∀ bs, p.encode = .ok bs →
      ∃ cs, p.contents? = some cs ∧
        bs = Rlp.encodeAll (frame variant (cs.flatMap Content.items)) ∧
        ∀ (i : Nat) (f : Field) (family : Family), variant.layout[i]? = some f →
          f.kind = .choice family →
          ∃ w label, p.values[i]? = some w ∧ name? w = some label ∧ cs[i]? = some (.name label) ∧
            ∀ v, argument given f = some v →
              (f.kind.Accurate v ↔ ∃ c ∈ family.members, w = .choice c) := by
  obtain rfl := variant_of_build h
  refine ⟨coerced_of_build h, wellTyped_iff_of_build h, ?_, ?_⟩
  · intro backend key sig hsign
    obtain ⟨bs, -, hbs, -, -⟩ := Signer.signPayload_eq_ok_iff.mp hsign
    exact ⟨bs, hbs⟩
  · intro bs hbs
    obtain ⟨cs, hcs, -, hbytes⟩ := contents?_of_encode (isComplete_of_build h) hbs
    refine ⟨cs, hcs, hbytes, ?_⟩
    intro i f family hf hkind
    obtain ⟨w, label, hw, hlabel, hname⟩ := exists_name_of_contents? hcs hf hkind
    refine ⟨w, label, hw, hlabel, hname, ?_⟩
    intro v hv
    rw [← (typed_of_build h hf hv hw).2, hkind]
    constructor
    · rintro (rfl | hchoice)
      · cases hlabel
      · exact hchoice
    · exact .inr

/-- Pausing the zero token, with the action as the caller gives it. -/
def pauseArguments (action : Value) : List (String × Value) :=
  [("recent_epoch", .int 1), ("recent_checkpoint", .int 2), ("chain_id", .int 1212101),
    ("nonce", .int 0), ("action", action), ("token", .bytes (Bytes.zeros 20))]

/-- The payload for it, when the action is not given as text. -/
def paused (action : Value) : Payload :=
  ⟨.tokenPause, [.int 1, .int 2, .int 1212101, .int 0, action, .address .zero]⟩

theorem build_pauseArguments {action : Value} (h : isText action = false) :
    build .tokenPause (pauseArguments action) = .ok (paused action) := by
  cases action with
  | text => cases h
  | torn => cases h
  | _ => rfl

theorem accurate_pauseArguments {action : Value}
    (h : (FieldKind.choice .pauseAction).Accurate action) :
    ∀ f ∈ Variant.tokenPause.layout, ∀ v, argument (pauseArguments action) f = some v →
      f.kind.Accurate v := by
  have hforms : ∀ f ∈ Variant.tokenPause.layout,
      f.kind = .word ∨ f.kind = .address ∨ f.name = "action" ∧ f.kind = .choice .pauseAction := by
    decide
  intro f hf v hv
  rcases hforms f hf with hkind | hkind | ⟨hname, hkind⟩
  · rw [hkind]
    trivial
  · rw [hkind]
    trivial
  · rw [argument, hname] at hv
    cases hv
    rw [hkind]
    exact h

theorem build_own_action :
    build .tokenPause (pauseArguments (.choice (.pauseAction .pause))) =
      .ok (paused (.choice (.pauseAction .pause))) ∧
    EachField WellTyped (paused (.choice (.pauseAction .pause))) ∧
    ∃ bs cs, (paused (.choice (.pauseAction .pause))).encode = .ok bs ∧
      (paused (.choice (.pauseAction .pause))).contents? = some cs ∧
      ∃ c ∈ Family.pauseAction.members, cs[4]? = some (.name c.label) := by
  have hbuild : build .tokenPause (pauseArguments (.choice (.pauseAction .pause))) =
      .ok (paused (.choice (.pauseAction .pause))) := build_pauseArguments rfl
  have hown : (FieldKind.choice .pauseAction).Accurate (.choice (.pauseAction .pause)) :=
    .inr (.inr ⟨.pauseAction .pause, by decide, rfl⟩)
  have hok : (paused (.choice (.pauseAction .pause))).encode.isOk = true := by decide +kernel
  obtain ⟨bs, hbs⟩ := exists_of_isOk hok
  obtain ⟨-, htyped, -, hnames⟩ := build_typed hbuild
  obtain ⟨cs, hcs, -, hchoices⟩ := hnames bs hbs
  obtain ⟨w, label, -, hlabel, hname, hmem⟩ :=
    hchoices 4 ⟨"action", .choice .pauseAction, false⟩ .pauseAction rfl rfl
  obtain ⟨c, hc, rfl⟩ := (hmem _ rfl).mp hown
  obtain rfl := Option.some.inj hlabel
  exact ⟨hbuild, htyped.mpr (accurate_pauseArguments hown), bs, cs, hbs, hcs, c, hc, hname⟩

/-- The signed bytes of a pause payload whose action is to add. -/
def foreignBytes : Bytes :=
  [0xe0, 0x01, 0x02, 0x83, 0x12, 0x7e, 0xc5, 0x80, 0x83, 0x41, 0x64, 0x64, 0x94] ++ Bytes.zeros 20

/-- The name of another family's action is signed as it stands: the signed bytes hold a name that
pauses nothing. Metadata keeps a value that is no text. -/
theorem build_foreign_action :
    (∃ p, build .tokenPause (pauseArguments (.choice (.blacklistAction .add))) = .ok p ∧
      ¬ EachField WellTyped p ∧ p.encode = .ok foreignBytes ∧
      Rlp.readAll foreignBytes = some [.list [.bytes [1], .bytes [2], .bytes [0x12, 0x7e, 0xc5], .bytes [],
        .bytes (Text.utf8 "Add"), .bytes (Bytes.zeros 20)]] ∧
      (∀ c ∈ Family.pauseAction.members, c.label ≠ "Add") ∧
      ∀ backend, ∃ sig,
        Signer.signPayload backend p (.bytes Signer.unitKey) = .ok sig) ∧
    ∃ p, build .tokenMetadataUpdate [("recent_epoch", .int 1), ("recent_checkpoint", .int 2),
        ("chain_id", .int 1212101), ("nonce", .int 0), ("name", .text "n"), ("uri", .text "u"),
        ("token", .bytes (Bytes.zeros 20)),
        ("additional_metadata", .dict [(.text "k", .int 5)])] = .ok p ∧
      ¬ EachField WellTyped p := by
  have hencode : (paused (.choice (.blacklistAction .add))).encode = .ok foreignBytes := by cbv
  refine ⟨⟨paused (.choice (.blacklistAction .add)), build_pauseArguments rfl, ?_, hencode, ?_,
    by decide, ?_⟩, _, rfl, ?_⟩
  · intro htyped
    rcases htyped 4 ⟨"action", .choice .pauseAction, false⟩ _ rfl rfl with hnull | ⟨c, hc, heq⟩
    · cases hnull
    · cases heq
      revert hc
      decide
  · have hframe : foreignBytes = Rlp.encodeAll [.list [.bytes [1], .bytes [2],
        .bytes [0x12, 0x7e, 0xc5], .bytes [], .bytes (Text.utf8 "Add"), .bytes (Bytes.zeros 20)]] := by
      decide +kernel
    rw [hframe]
    exact Rlp.readAll_encodeAll (by decide +kernel)
  · intro backend
    exact ⟨_, Signer.signPayload_eq_ok_iff.mpr ⟨_, _, hencode, Signer.loadKey_unitKey, rfl⟩⟩
  · intro htyped
    obtain ⟨entries, hentries⟩ := htyped 7 ⟨"additional_metadata", .metadata, true⟩ _ rfl rfl
    cases entries with
    | nil => cases hentries
    | cons e rest =>
      have hvalue := (Value.pair.inj (List.cons.inj (Value.tuple.inj hentries)).1).2
      have htext := isText_toValue e.value
      rw [← hvalue] at htext
      cases htext

end Payload

end LedgerClient
