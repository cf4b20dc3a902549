import LedgerClient.Proofs.Response.Reading
import LedgerClient.Proofs.Value.Entries
import Mathlib.Data.List.Forall2

/-!
# Checkpoints in full and by hashes

The header of a checkpoint and its list of transactions are read apart. An element of the list counts by
the hash that it reports, and a transaction reports the hash in its own object, so a list in which some
transactions are replaced by their hashes makes the same checkpoint but for the form of its elements.
-/

namespace LedgerClient

open Response (Part Describes readAll hashText readAll_eq_ok describes_checkpoint describes_checkpointEntry
  describes_hash describes_transaction)

/-! ## Lists of elements -/

section

variable {α β : Type} {read : Value → Result α}

theorem Response.readAll_map (f : α → β) (items : List Value) :
    (readAll read items).map (List.map f) = readAll (fun v => (read v).map f) items := by
  induction items with
  | nil => rfl
  | cons v rest ih =>
    rw [readAll, readAll, ← ih]
    cases read v with
    | error e => rfl
    | ok a =>
      cases readAll read rest with
      | error e => rfl
      | ok as => rfl

theorem Response.readAll_congr {items items' : List Value}
    (h : List.Forall₂ (fun v w => read v = read w) items items') :
    readAll read items = readAll read items' := by
  induction h with
  | nil => rfl
  | cons hv _ ih => rw [readAll, readAll, hv, ih]

/-- One element that cannot be read is enough. -/
theorem Response.readAll_ne_ok {items : List Value} {v : Value} (hv : v ∈ items)
    (hread : ∀ a, read v ≠ .ok a) (as : List α) : readAll read items ≠ .ok as := by
  induction items generalizing as with
  | nil => cases hv
  | cons w rest ih =>
    intro h
    rw [readAll, bind_eq_ok] at h
    obtain ⟨a, ha, h⟩ := h
    obtain ⟨others, hothers, -⟩ := bind_eq_ok.mp h
    rcases List.mem_cons.mp hv with rfl | hv
    · exact hread a ha
    · exact ih hv others hothers

theorem Response.reads_array_iff {part : α → Part} (h : Describes read part) {as : List α}
    {items : List Value} :
    (Part.listOrNone (as.map part)).Reads (some (.list items)) ↔ readAll read items = .ok as := by
  constructor
  · intro hreads
    generalize hparts : as.map part = parts at hreads
    cases hreads with
    | blankList hfalse =>
      obtain rfl := List.map_eq_nil_iff.mp hparts
      cases items with
      | nil => rfl
      | cons => cases hfalse
    | fullList _ hv hall =>
      cases hv
      subst hparts
      exact (readAll_eq_ok h).mpr hall
  · intro hread
    cases items with
    | nil =>
      cases hread
      exact .blankList rfl
    | cons v rest => exact .fullList rfl rfl ((readAll_eq_ok h).mp hread)

end

/-! ## Elements of a checkpoint -/

/-- An element in place of another: itself, or the hash of a transaction. -/
inductive Abridges : Value → Value → Prop where
  | same (v : Value) : Abridges v v
  | hash {v h : Value} {t : Transaction} (ht : Transaction.ofValue v = .ok t)
      (hh : v.require "hash" = .ok h) : Abridges h v

theorem entry_of_text {v : Value} {s : Script} (h : v.text? = some s) :
    CheckpointEntry.ofValue v = (hashText v).map CheckpointEntry.hash := by
  cases v with
  | text s => cases hread : hashText (.text s) <;> rw [CheckpointEntry.ofValue, hread] <;> rfl
  | torn t => cases hread : hashText (.torn t) <;> rw [CheckpointEntry.ofValue, hread] <;> rfl
  | _ => cases h

theorem entry_of_hash {v : Value} {s : Script} (h : hashText v = .ok s) :
    CheckpointEntry.ofValue v = .ok (.hash s) := by
  obtain ⟨text, htext⟩ : ∃ text, v.text? = some text := by
    cases describes_hash.read_eq_ok.mp h with
    | hash htext _ => exact ⟨_, htext⟩
  rw [entry_of_text htext, h]
  rfl

/-- The hash of a transaction stands in its object, and it is read as an element. -/
theorem exists_hash {v : Value} {t : Transaction} (ht : Transaction.ofValue v = .ok t) :
    ∃ h, v.require "hash" = .ok h ∧ CheckpointEntry.ofValue h = .ok (.hash t.hash) ∧
      CheckpointEntry.ofValue v = .ok (.full t) := by
  obtain ⟨entries, rfl, hfields⟩ := Part.reads_record_iff.mp (describes_transaction.read_eq_ok.mp ht)
  have hread : (Response.require (.dict entries) "hash" >>= hashText) = .ok t.hash :=
    describes_hash.require_eq_ok.mpr (hfields _ List.mem_cons_self)
  obtain ⟨h, hrequire, hhash⟩ := bind_eq_ok.mp hread
  refine ⟨h, ofFault_eq_ok.mp hrequire, entry_of_hash hhash, ?_⟩
  show (Transaction.ofValue (.dict entries) >>= fun t => .ok (CheckpointEntry.full t)) = _
  rw [ht]
  rfl

/-- The hash that an element reports. -/
def CheckpointEntry.hashOf (v : Value) : Result Script := (ofValue v).map transactionHash

theorem Abridges.hashOf_eq {v w : Value} (h : Abridges v w) :
    CheckpointEntry.hashOf v = CheckpointEntry.hashOf w := by
  cases h with
  | same => rfl
  | hash ht hh =>
    obtain ⟨h, hrequire, hhash, hfull⟩ := exists_hash ht
    rw [hh] at hrequire
    cases hrequire
    rw [CheckpointEntry.hashOf, CheckpointEntry.hashOf, hhash, hfull]
    rfl

theorem exists_hashes {items : List Value} (h : ∀ v ∈ items, ∃ t, Transaction.ofValue v = .ok t) :
    ∃ hashes, items.mapM (Value.require "hash") = .ok hashes ∧ List.Forall₂ Abridges hashes items := by
  induction items with
  | nil => exact ⟨[], rfl, .nil⟩
  | cons v rest ih =>
    obtain ⟨⟨t, ht⟩, hrest⟩ := List.forall_mem_cons.mp h
    obtain ⟨hash, hhash, -⟩ := exists_hash ht
    obtain ⟨hashes, hhashes, hall⟩ := ih hrest
    refine ⟨hash :: hashes, ?_, .cons (.hash ht hhash) hall⟩
    rw [List.mapM_cons, hhash, hhashes]
    rfl

namespace Checkpoint

/-! ## Header and list -/

/-- The object of a header with these elements as its transactions. -/
def document (header : List (Value × Value)) (items : List Value) : Value :=
  .dict (Value.insertEntry (.text "transactions") (.list items) header)

variable {header : List (Value × Value)} {items abridged : List Value}

theorem reads_document_iff {fields : List (String × Part)} :
    (Part.record fields).Reads (some (document header items)) ↔
      ∀ f ∈ fields, f.2.Reads (if "transactions" = f.1 then some (.list items)
        else Value.lookup f.1 header) := by
  rw [Part.reads_record_iff]
  constructor
  · rintro ⟨entries, hentries, h⟩ f hf
    cases hentries
    rw [← Value.lookup_insertEntry]
    exact h f hf
  · intro h
    refine ⟨_, rfl, fun f hf => ?_⟩
    rw [Value.lookup_insertEntry]
    exact h f hf

/-- The header decides alone whether it is accepted, and so does the list. -/
theorem ofValue_document_eq_ok {c : Checkpoint} :
    ofValue (document header items) = .ok c ↔
      ofValue (document header []) = .ok { c with transactions := [] } ∧
        readAll CheckpointEntry.ofValue items = .ok c.transactions := by
  rw [describes_checkpoint.read_eq_ok, describes_checkpoint.read_eq_ok, part, part, reads_document_iff,
    reads_document_iff, ← Response.reads_array_iff describes_checkpointEntry]
  simp only [List.forall_mem_cons, String.reduceEq, if_false, if_true]
  constructor
  · rintro ⟨hhash, hparent, hstate, htransactions, hreceipts, hnumber, htimestamp, hextra, hentries,
      hsize, -⟩
    exact ⟨⟨hhash, hparent, hstate, htransactions, hreceipts, hnumber, htimestamp, hextra,
      .blankList rfl, hsize, List.forall_mem_nil _⟩, hentries⟩
  · rintro ⟨⟨hhash, hparent, hstate, htransactions, hreceipts, hnumber, htimestamp, hextra, -, hsize,
      -⟩, hentries⟩
    exact ⟨hhash, hparent, hstate, htransactions, hreceipts, hnumber, htimestamp, hextra, hentries,
      hsize, List.forall_mem_nil _⟩

/-! ## Agreement -/

/-- Both are accepted or none is, and the checkpoints differ in the form of their elements at most. -/
structure Alike (a b : Result Checkpoint) : Prop where
  accepted_iff : (∃ c, a = .ok c) ↔ ∃ d, b = .ok d
  hashes_eq : ∀ c d, a = .ok c → b = .ok d → c.transactionHashes = d.transactionHashes
  rest_eq : ∀ c d, a = .ok c → b = .ok d → c = { d with transactions := c.transactions }

/-- The hashes that a list of elements reports. -/
def hashesOf (items : List Value) : Result (List Script) :=
  (readAll CheckpointEntry.ofValue items).map (List.map CheckpointEntry.transactionHash)

theorem hashesOf_eq (h : List.Forall₂ Abridges abridged items) : hashesOf abridged = hashesOf items := by
  rw [hashesOf, hashesOf, Response.readAll_map, Response.readAll_map]
  exact Response.readAll_congr (h.imp fun _ _ => Abridges.hashOf_eq)

theorem exists_alike (h : hashesOf abridged = hashesOf items) {c : Checkpoint}
    (hc : ofValue (document header items) = .ok c) : ∃ es,
      ofValue (document header abridged) = .ok { c with transactions := es } ∧
        es.map CheckpointEntry.transactionHash = c.transactionHashes := by
  obtain ⟨hheader, hentries⟩ := ofValue_document_eq_ok.mp hc
  have hhashes : hashesOf items = .ok c.transactionHashes := by
    rw [hashesOf, hentries]
    rfl
  rw [← h] at hhashes
  obtain ⟨es, hes, heq⟩ := map_eq_ok.mp hhashes
  exact ⟨es, ofValue_document_eq_ok.mpr ⟨hheader, hes⟩, heq⟩

theorem alike_of_hashesOf (h : hashesOf abridged = hashesOf items) :
    Alike (ofValue (document header abridged)) (ofValue (document header items)) where
  accepted_iff := by
    constructor
    · rintro ⟨c, hc⟩
      obtain ⟨es, hd, -⟩ := exists_alike h.symm hc
      exact ⟨_, hd⟩
    · rintro ⟨d, hd⟩
      obtain ⟨es, hc, -⟩ := exists_alike h hd
      exact ⟨_, hc⟩
  hashes_eq c d hc hd := by
    obtain ⟨es, hc', hes⟩ := exists_alike h hd
    rw [hc] at hc'
    cases hc'
    exact hes
  rest_eq c d hc hd := by
    obtain ⟨es, hc', -⟩ := exists_alike h hd
    rw [hc] at hc'
    cases hc'
    rfl

theorem length_transactionHashes {c : Checkpoint} (hc : ofValue (document header items) = .ok c) :
    c.transactionHashes.length = items.length := by
  obtain ⟨-, hentries⟩ := ofValue_document_eq_ok.mp hc
  rw [transactionHashes, List.length_map]
  exact Response.readAll_length _ hentries

theorem exists_wrongShape {v : Value} (hv : v ∈ items) (hread : ∀ e, CheckpointEntry.ofValue v ≠ .ok e) :
    ∃ f, ofValue (document header items) = .error f ∧ f.IsWrongShape := by
  cases hc : ofValue (document header items) with
  | error f => exact ⟨f, rfl, Checkpoint.failsOnly_ofValue _ f hc⟩
  | ok c =>
    obtain ⟨-, hentries⟩ := ofValue_document_eq_ok.mp hc
    exact absurd hentries (Response.readAll_ne_ok hv hread _)

/-- A checkpoint in full, by hashes alone and by any mixture of both is the same checkpoint but for the
form of its elements, whose number and order the list gives; one element that is refused refuses all. -/
theorem full_and_abridged_agree :
    (∀ header items abridged, List.Forall₂ Abridges abridged items →
      Alike (ofValue (document header abridged)) (ofValue (document header items))) ∧
    (∀ items : List Value, (∀ v ∈ items, ∃ t, Transaction.ofValue v = .ok t) →
      ∃ hashes, items.mapM (Value.require "hash") = .ok hashes ∧
        ∀ header, Alike (ofValue (document header hashes)) (ofValue (document header items))) ∧
    (∀ header items c, ofValue (document header items) = .ok c →
      c.transactionHashes.length = items.length) ∧
    ∀ header items, ∀ v ∈ items, (∀ e, CheckpointEntry.ofValue v ≠ .ok e) →
      ∃ f, ofValue (document header items) = .error f ∧ f.IsWrongShape := by
  refine ⟨?_, ?_, fun header items c => length_transactionHashes, ?_⟩
  · intro header items abridged h
    exact alike_of_hashesOf (hashesOf_eq h)
  · intro items h
    obtain ⟨hashes, hmapM, hall⟩ := exists_hashes h
    exact ⟨hashes, hmapM, fun header => alike_of_hashesOf (hashesOf_eq hall)⟩
  · intro header items v hv hread
    exact exists_wrongShape hv hread

def transferred : Value :=
  Value.record [("hash", .text "0xAB"), ("chain_id", .int 1), ("from", Response.zeroText),
    ("nonce", .text "7"), ("signature", Value.record [("r", .int 1), ("s", .int 2), ("v", .int 27)])]

def ninth : List (Value × Value) :=
  [(.text "hash", .text "0x1"), (.text "parent_hash", .text "0x0"), (.text "state_root", .text "0x2"),
    (.text "transactions_root", .text "0x3"), (.text "receipts_root", .text "0x4"),
    (.text "number", .int 9), (.text "timestamp", .int 1700000000)]

/-- One transaction in full beside a hash, and both as hashes. -/
theorem checkpoint_of_transferred :
    (∃ c d, ofValue (document ninth [transferred, .text "0xcd"]) = .ok c ∧
      ofValue (document ninth [.text "0xAB", .text "0xcd"]) = .ok d ∧
      c.transactionHashes = d.transactionHashes ∧ d.transactionHashes.length = 2) ∧
    ∃ f, ofValue (document ninth [transferred, .null]) = .error f ∧ f.IsWrongShape := by
  obtain ⟨hmixed, -, hlength, hrefused⟩ := full_and_abridged_agree
  have htransferred : ∃ t, Transaction.ofValue transferred = .ok t := ⟨_, rfl⟩
  obtain ⟨t, ht⟩ := htransferred
  have hall : List.Forall₂ Abridges [.text "0xAB", .text "0xcd"] [transferred, .text "0xcd"] :=
    .cons (.hash ht rfl) (.cons (.same _) .nil)
  have halike := hmixed ninth _ _ hall
  have hfull : ∃ c, ofValue (document ninth [transferred, .text "0xcd"]) = .ok c := ⟨_, rfl⟩
  obtain ⟨c, hc⟩ := hfull
  obtain ⟨d, hd⟩ := halike.accepted_iff.mpr ⟨c, hc⟩
  refine ⟨⟨c, d, hc, hd, (halike.hashes_eq d c hd hc).symm, hlength _ _ _ hd⟩, ?_⟩
  refine hrefused ninth _ .null (by simp) fun e he => ?_
  cases he

end Checkpoint

end LedgerClient
