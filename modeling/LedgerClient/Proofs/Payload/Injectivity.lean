import LedgerClient.Proofs.Payload.Content
import LedgerClient.Proofs.Rlp
import LedgerClient.Proofs.Text.Utf8

/-!
# Signed bytes determine what is signed

Two payloads that name choices of the protocol have the same bytes exactly when they share a layout and
say the same in every field.
Contents of one shape are determined by their items. Layouts are kept apart by the list around
them, by their numbers of items, and, where these agree, by the fifth item: an address has twenty
bytes and no choice has a label of that length.
-/

namespace LedgerClient

namespace Content

theorem entryItem_injective {a b : String × String} (h : entryItem a = entryItem b) : a = b := by
  obtain ⟨k, x⟩ := a
  obtain ⟨l, y⟩ := b
  simp only [entryItem, Rlp.Item.list.injEq, List.cons.injEq, Rlp.Item.bytes.injEq, and_true] at h
  rw [Text.utf8_injective h.1, Text.utf8_injective h.2]

/-- Contents of one shape that begin one list of items are equal, and so is what follows. -/
theorem append_items_injective {c d : Content} {xs ys : List Rlp.Item} (hshape : c.shape = d.shape)
    (h : c.items ++ xs = d.items ++ ys) : c = d ∧ xs = ys := by
  cases c <;> cases d <;> cases hshape
  case number.number.refl m n =>
    simp only [items, List.singleton_append, List.cons.injEq, Rlp.Item.bytes.injEq] at h
    exact ⟨by rw [Bytes.minimal_injective h.1], h.2⟩
  case address.address.refl a b =>
    simp only [items, List.singleton_append, List.cons.injEq, Rlp.Item.bytes.injEq] at h
    exact ⟨by rw [Address.ext h.1], h.2⟩
  case text.text.refl s t =>
    simp only [items, List.singleton_append, List.cons.injEq, Rlp.Item.bytes.injEq] at h
    exact ⟨by rw [Text.utf8_injective h.1], h.2⟩
  case name.name.refl s t =>
    simp only [items, List.singleton_append, List.cons.injEq, Rlp.Item.bytes.injEq] at h
    exact ⟨by rw [Text.utf8_injective h.1], h.2⟩
  case entries.entries.refl ps qs =>
    simp only [items, List.singleton_append, List.cons.injEq, Rlp.Item.list.injEq] at h
    have hpairs : ps = qs := (List.map_inj_right fun _ _ => entryItem_injective).mp h.1
    exact ⟨by rw [hpairs], h.2⟩
  case note.note.refl s t =>
    -- an absent note is one empty item, a present one begins with the scalar one
    cases s with
    | none =>
      cases t with
      | none => exact ⟨rfl, (List.cons.inj h).2⟩
      | some t => simp [items] at h
    | some s =>
      cases t with
      | none => simp [items] at h
      | some t =>
        simp only [items, List.cons_append, List.nil_append, List.cons.injEq, true_and,
          Rlp.Item.bytes.injEq] at h
        exact ⟨by rw [Text.utf8_injective h.1], h.2⟩

theorem flatMap_items_injective {cs ds : List Content} {xs ys : List Rlp.Item}
    (hshape : cs.map shape = ds.map shape) (h : cs.flatMap items ++ xs = ds.flatMap items ++ ys) :
    cs = ds ∧ xs = ys := by
  induction cs generalizing ds with
  | nil =>
    cases ds with
    | nil => exact ⟨rfl, h⟩
    | cons d ds => cases hshape
  | cons c cs ih =>
    cases ds with
    | nil => cases hshape
    | cons d ds =>
      rw [List.map_cons, List.map_cons, List.cons.injEq] at hshape
      rw [List.flatMap_cons, List.flatMap_cons, List.append_assoc, List.append_assoc] at h
      obtain ⟨rfl, hrest⟩ := append_items_injective hshape.1 h
      obtain ⟨rfl, hxs⟩ := ih hshape.2 hrest
      exact ⟨rfl, hxs⟩

/-- A content is one item, a note one or two. -/
theorem length_flatMap_items (cs : List Content) :
    cs.length ≤ (cs.flatMap items).length ∧
      (cs.flatMap items).length ≤ cs.length + (cs.map shape).count .note := by
  induction cs with
  | nil => exact ⟨Nat.le_refl 0, Nat.le_refl 0⟩
  | cons c cs ih =>
    have hone : 1 ≤ c.items.length ∧ c.items.length ≤ 1 + [c.shape].count .note := by
      cases c with
      | note s => cases s <;> simp [items, shape]
      | _ => exact ⟨Nat.le_refl 1, Nat.le_add_right 1 _⟩
    rw [List.flatMap_cons, List.length_append, List.length_cons, List.map_cons,
      List.count_cons]
    rw [List.count_singleton] at hone
    omega

end Content

namespace Choice

theorem length_utf8_label (c : Choice) : (Text.utf8 c.label).length ≠ 20 := by
  cases c with
  | authorityAction a => cases a <;> decide
  | authority a => cases a <;> decide
  | pauseAction a => cases a <;> decide
  | blacklistAction a => cases a <;> decide
  | whitelistAction a => cases a <;> decide
  | transactionStatus a => cases a <;> decide
  | errorCode a => cases a <;> decide

end Choice

namespace Variant

open Content

/-- Two variants are signed in the same layout: they are one, or both move an amount of a token to a
recipient, or both manage a list of addresses. -/
def SharesLayout (v w : Variant) : Prop :=
  v = w ∨
  v ∈ [payment, tokenMint, tokenBurn] ∧ w ∈ [payment, tokenMint, tokenBurn] ∨
  v ∈ [tokenBlacklist, tokenWhitelist] ∧ w ∈ [tokenBlacklist, tokenWhitelist]

instance (v w : Variant) : Decidable (SharesLayout v w) :=
  inferInstanceAs (Decidable (_ ∨ _ ∧ _ ∨ _ ∧ _))

def shapes (v : Variant) : List Shape := v.layout.map fun f => f.kind.shape

theorem shapes_eq_of_sharesLayout {v w : Variant} (h : SharesLayout v w) : v.shapes = w.shapes := by
  revert h
  cases v <;> cases w <;> decide

theorem isWrapped_eq_of_sharesLayout {v w : Variant} (h : SharesLayout v w) :
    v.isWrapped = w.isWrapped := by
  revert h
  cases v <;> cases w <;> decide

theorem length_shapes_gt (v : Variant) : 1 < v.shapes.length := by
  cases v <;> decide

/-- The shapes at which layouts of one length differ. -/
def ForksAtFifth (v w : Variant) : Prop :=
  v.shapes.take 4 = w.shapes.take 4 ∧ v.shapes[4]? = some .address ∧ w.shapes[4]? = some .name

instance (v w : Variant) : Decidable (ForksAtFifth v w) :=
  inferInstanceAs (Decidable (_ ∧ _ ∧ _))

/-- Layouts whose numbers of items may agree are the same or fork at the fifth field. -/
theorem sharesLayout_or_forks {v w : Variant} (hwrapped : v.isWrapped = w.isWrapped)
    (hvw : v.shapes.length ≤ w.shapes.length + w.shapes.count .note)
    (hwv : w.shapes.length ≤ v.shapes.length + v.shapes.count .note) :
    SharesLayout v w ∨ ForksAtFifth v w ∨ ForksAtFifth w v := by
  revert hwrapped hvw hwv
  cases v <;> cases w <;> decide

end Variant

namespace Payload

open Content

/-- Contents of layouts that fork at the fifth field have different items there. -/
theorem flatMap_items_ne_of_forks {v w : Variant} {cs ds : List Content}
    (hfork : v.ForksAtFifth w) (hv : cs.map shape = v.shapes) (hw : ds.map shape = w.shapes)
    (hlabel : ∀ label, .name label ∈ ds → ∃ c : Choice, c.label = label) :
    cs.flatMap Content.items ≠ ds.flatMap Content.items := by
  intro h
  obtain ⟨hanchor, haddress, hname⟩ := hfork
  rw [← hv, ← hw, ← List.map_take, ← List.map_take] at hanchor
  rw [← hv, List.getElem?_map, Option.map_eq_some_iff] at haddress
  rw [← hw, List.getElem?_map, Option.map_eq_some_iff] at hname
  obtain ⟨c, hc, hcshape⟩ := haddress
  obtain ⟨d, hd, hdshape⟩ := hname
  -- both lists are cut before the fifth content
  have hcut : ∀ {es : List Content} {e : Content}, es[4]? = some e →
      es.flatMap Content.items =
        (es.take 4).flatMap Content.items ++ (e.items ++ (es.drop 5).flatMap Content.items) := by
    intro es e he
    obtain ⟨hlt, rfl⟩ := List.getElem?_eq_some_iff.mp he
    rw [← List.flatMap_cons, ← List.drop_eq_getElem_cons hlt, ← List.flatMap_append,
      List.take_append_drop]
  rw [hcut hc, hcut hd] at h
  obtain ⟨-, hfifth⟩ := flatMap_items_injective hanchor h
  cases c <;> cases hcshape
  cases d <;> cases hdshape
  case address.refl.name.refl a label =>
    simp only [Content.items, List.singleton_append, List.cons.injEq, Rlp.Item.bytes.injEq] at hfifth
    obtain ⟨choice, rfl⟩ := hlabel label (List.mem_of_getElem? hd)
    have hlen := a.length_eq
    rw [hfifth.1] at hlen
    exact choice.length_utf8_label hlen

theorem frame_injective {v w : Variant} {xs ys : List Rlp.Item} (hx : 1 < xs.length)
    (hy : 1 < ys.length) (h : frame v xs = frame w ys) : v.isWrapped = w.isWrapped ∧ xs = ys := by
  unfold frame at h
  cases hv : v.isWrapped <;> cases hw : w.isWrapped <;> rw [hv, hw] at h
  · exact ⟨rfl, h⟩
  · rw [if_neg Bool.false_ne_true, if_pos rfl] at h
    rw [h] at hx
    exact absurd hx (Nat.lt_irrefl 1)
  · rw [if_neg Bool.false_ne_true, if_pos rfl] at h
    rw [← h] at hy
    exact absurd hy (Nat.lt_irrefl 1)
  · rw [if_pos rfl, if_pos rfl, List.cons.injEq, Rlp.Item.list.injEq] at h
    exact ⟨rfl, h.1⟩

/-- Framed contents determine the layout and the contents. -/
theorem contents_eq_of_frame_eq {v w : Variant} {cs ds : List Content}
    (hv : cs.map shape = v.shapes) (hw : ds.map shape = w.shapes)
    (hcs : ∀ label, .name label ∈ cs → ∃ c : Choice, c.label = label)
    (hds : ∀ label, .name label ∈ ds → ∃ c : Choice, c.label = label)
    (h : frame v (cs.flatMap Content.items) = frame w (ds.flatMap Content.items)) :
    v.SharesLayout w ∧ cs = ds := by
  have hvlen : cs.length = v.shapes.length := by rw [← hv, List.length_map]
  have hwlen : ds.length = w.shapes.length := by rw [← hw, List.length_map]
  obtain ⟨hclow, hchigh⟩ := length_flatMap_items cs
  obtain ⟨hdlow, hdhigh⟩ := length_flatMap_items ds
  have hvpos := v.length_shapes_gt
  have hwpos := w.length_shapes_gt
  obtain ⟨hwrapped, hitems⟩ := frame_injective (by omega) (by omega) h
  rw [hv] at hchigh
  rw [hw] at hdhigh
  rw [hitems] at hclow hchigh
  have hshares : v.SharesLayout w := by
    rcases Variant.sharesLayout_or_forks hwrapped (by omega) (by omega) with hs | hf | hf
    · exact hs
    · exact absurd hitems (flatMap_items_ne_of_forks hf hv hw hds)
    · exact absurd hitems.symm (flatMap_items_ne_of_forks hf hw hv hcs)
  have hshape : cs.map shape = ds.map shape := by
    rw [hv, hw, Variant.shapes_eq_of_sharesLayout hshares]
  have happend : cs.flatMap Content.items ++ [] = ds.flatMap Content.items ++ [] := by rw [hitems]
  exact ⟨hshares, (flatMap_items_injective hshape happend).1⟩

/-- Equal bytes are signed for one layout and one content of each field, and only for these. -/
theorem encode_eq_encode_iff {p q : Payload} {bs cs : Bytes} (hp : p.IsComplete) (hq : q.IsComplete)
    (hpnames : p.NamesChoices) (hqnames : q.NamesChoices)
    (hbs : p.encode = .ok bs) (hcs : q.encode = .ok cs) :
    bs = cs ↔ p.variant.SharesLayout q.variant ∧
      ∃ said, p.contents? = some said ∧ q.contents? = some said := by
  obtain ⟨xs, hxs, hxfits, rfl⟩ := contents?_of_encode hp hbs
  obtain ⟨ys, hys, hyfits, rfl⟩ := contents?_of_encode hq hcs
  constructor
  · intro h
    have hframe := Rlp.encodeAll_injective hxfits hyfits h
    obtain ⟨hshares, rfl⟩ := contents_eq_of_frame_eq (shapes_of_contentsOf hxs)
      (shapes_of_contentsOf hys) (fun _ hmem => exists_choice_of_contentsOf hxs hpnames hmem)
      (fun _ hmem => exists_choice_of_contentsOf hys hqnames hmem) hframe
    exact ⟨hshares, xs, hxs, hys⟩
  · rintro ⟨hshares, said, hp', hq'⟩
    rw [hxs] at hp'
    rw [hys] at hq'
    cases hp'
    cases hq'
    rw [frame, frame, Variant.isWrapped_eq_of_sharesLayout hshares]

/-- Five units arriving from another chain, with a note or without one. -/
def arrival (note : Value) : Payload :=
  ⟨.tokenBridgeAndMint, [.int 7, .int 1, .int 0, .address Address.zero, .amount ⟨5, by decide⟩,
    .address Address.zero, .int 56, .text "0xab", note]⟩

/-- The absent note and the empty one are signed with different bytes. -/
theorem encode_arrival_ne : ∃ bs cs, (arrival .null).encode = .ok bs ∧
    (arrival (.text "")).encode = .ok cs ∧ bs ≠ cs := by
  have hcomplete : ∀ note, (arrival note).IsComplete := fun _ => rfl
  have hcontents : (arrival .null).contents? ≠ (arrival (.text "")).contents? := by decide
  have hok : (arrival .null).encode.isOk = true ∧ (arrival (.text "")).encode.isOk = true := by
    decide +kernel
  cases hbs : (arrival .null).encode with
  | error e => rw [hbs] at hok; cases hok.1
  | ok bs =>
    cases hcs : (arrival (.text "")).encode with
    | error e => rw [hcs] at hok; cases hok.2
    | ok cs =>
      refine ⟨bs, cs, rfl, rfl, fun h => ?_⟩
      obtain ⟨-, said, hp, hq⟩ :=
        (encode_eq_encode_iff (hcomplete _) (hcomplete _) (by decide) (by decide) hbs hcs).mp h
      exact hcontents (hp.trans hq.symm)

end Payload

end LedgerClient
