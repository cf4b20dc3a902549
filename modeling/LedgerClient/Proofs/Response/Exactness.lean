import LedgerClient.Proofs.Address.Codec
import LedgerClient.Proofs.Number.Literal
import LedgerClient.Proofs.Response.Reading

/-!
# Decoded records are exact

Each field of a decoded record is what the value at its key writes and nothing else: a number of 64 bits is the
integer there or that of the literal there, an amount the integer or that of the decimal digits, an address
the twenty bytes that the text spells. A field is empty exactly when its key is absent or null, and a list
has an element for each element of the array, in the same order.
-/

namespace LedgerClient

open Response (Part elements)

/-- What stands at a key of an object. -/
def Value.atKey (key : String) : Value → Option Value
  | .dict entries => lookup key entries
  | _ => none

/-! ## What a value writes -/

/-- The value writes this number of 64 bits: an integer, or a literal with a sign and blanks. -/
inductive WritesWord (n : Nat) : Value → Prop where
  | int (hn : n < 2 ^ 64) : WritesWord n (.int n)
  | text {s : String} (hs : Integer.IsLiteral s n) (hn : n < 2 ^ 64) : WritesWord n (.text s)

/-- The value writes this amount: an integer, or decimal digits between blanks. -/
inductive WritesAmount (a : TokenAmount) : Value → Prop where
  | int (ha : a.units < 2 ^ 256) : WritesAmount a (.int a.units)
  | text {s : String} {digits : List Nat} (hs : TokenAmount.IsNumeral s digits)
      (hdigits : Integer.ofDigits 10 digits = a.units) (ha : a.units < 2 ^ 256) :
      WritesAmount a (.text s)

/-- The value writes this address: its forty digits in any case, behind a marker or none. -/
inductive WritesAddress (a : Address) : Value → Prop where
  | text {s : String} {digits : List Char} (hs : Address.HexForm digits s)
      (hdigits : Bytes.ofHexChars digits = some a.bytes) : WritesAddress a (.text s)

/-- The value writes this hash: a text behind a marker, which is kept in lower case. -/
inductive WritesHash : Script → Value → Prop where
  | text {v : Value} {s : Script} (hv : v.text? = some s)
      (hs : "0x".toList.isPrefixOf s.mended.toList = true) : WritesHash s.lower v

def WritesText (s : Script) (v : Value) : Prop := v.script = .ok s

/-! ## What stands at a key -/

section

variable {α : Type} (writes : α → Value → Prop)

/-- The key holds a value that writes this. -/
def Holds (a : α) (o : Option Value) : Prop := ∃ v, o = some v ∧ writes a v

/-- The field is empty when its key is absent or null and no other time. -/
structure HoldsOptional (x : Option α) (o : Option Value) : Prop where
  eq_none_iff : x = none ↔ o = none ∨ o = some .null
  holds : ∀ a, x = some a → Holds writes a o

/-- The list has an element for each element of an array; what is no array is gone through. -/
structure HoldsList (as : List α) (o : Option Value) : Prop where
  absent : o = none → as = []
  array : ∀ items, o = some (.list items) → List.Forall₂ writes as items
  source : as ≠ [] → ∃ v items, o = some v ∧ elements v = .ok items ∧ List.Forall₂ writes as items

/-- A key that may be absent or hold anything that counts as false. -/
def HoldsOrBlank (empty : α → Prop) (a : α) (o : Option Value) : Prop :=
  ((o.getD .null).truthy = false ∧ empty a) ∨ ((o.getD .null).truthy = true ∧ Holds writes a o)

end

/-! ## Records -/

structure Signature.IsExact (sig : Signature) (object : Value) : Prop where
  r : Holds (fun n v => scalar "r" v = .ok n) sig.r (object.atKey "r")
  s : Holds (fun n v => scalar "s" v = .ok n) sig.s (object.atKey "s")
  v : Holds (fun n v => scalar "v" v = .ok n) sig.v (object.atKey "v")

structure Transaction.IsExact (t : Transaction) (object : Value) : Prop where
  hash : Holds WritesHash t.hash (object.atKey "hash")
  chainId : Holds WritesWord t.chainId (object.atKey "chain_id")
  sender : Holds WritesAddress t.sender (object.atKey "from")
  nonce : Holds WritesWord t.nonce (object.atKey "nonce")
  recentEpoch : HoldsOptional WritesWord t.recentEpoch (object.atKey "recent_epoch")
  recentCheckpoint : HoldsOptional WritesWord t.recentCheckpoint (object.atKey "recent_checkpoint")
  signature : Holds Signature.IsExact t.signature (object.atKey "signature")
  kind : t.kind = (object.atKey "transaction_type").getD .null
  data : Response.dictionary ((object.atKey "data").getD .null) = .ok t.data
  checkpointHash : HoldsOptional WritesHash t.checkpointHash (object.atKey "checkpoint_hash")
  checkpointNumber : HoldsOptional WritesWord t.checkpointNumber (object.atKey "checkpoint_number")
  transactionIndex : HoldsOptional WritesWord t.transactionIndex (object.atKey "transaction_index")

structure TransactionReceipt.IsExact (r : TransactionReceipt) (object : Value) : Prop where
  success : Holds (fun b v => v = .bool b) r.success (object.atKey "success")
  feeUsed : Holds (fun n v => Response.fee v = .ok n) r.feeUsed (object.atKey "fee_used")
  transactionHash : Holds WritesHash r.transactionHash (object.atKey "transaction_hash")
  sender : Holds WritesAddress r.sender (object.atKey "from")
  recipient : HoldsOptional WritesAddress r.recipient (object.atKey "to")
  tokenAddress : HoldsOptional WritesAddress r.tokenAddress (object.atKey "token_address")
  transactionIndex : HoldsOptional WritesWord r.transactionIndex (object.atKey "transaction_index")
  checkpointHash : HoldsOptional WritesHash r.checkpointHash (object.atKey "checkpoint_hash")
  checkpointNumber : HoldsOptional WritesWord r.checkpointNumber (object.atKey "checkpoint_number")

structure AssociatedTokenAccount.IsExact (a : AssociatedTokenAccount) (object : Value) : Prop where
  address : Holds WritesAddress a.address (object.atKey "token_account_address")
  balance : Holds WritesAmount a.balance (object.atKey "balance")
  nonce : Holds WritesWord a.nonce (object.atKey "nonce")

structure LatestState.IsExact (s : LatestState) (object : Value) : Prop where
  epoch : Holds WritesWord s.epoch (object.atKey "epoch")
  checkpoint : Holds WritesWord s.checkpoint (object.atKey "checkpoint")

/-- An element writes a hash or a whole transaction. -/
inductive CheckpointEntry.IsExact : CheckpointEntry → Value → Prop where
  | hash {h : Script} {v : Value} (hh : WritesHash h v) : IsExact (.hash h) v
  | full {t : Transaction} {v : Value} (ht : t.IsExact v) : IsExact (.full t) v

structure Checkpoint.IsExact (c : Checkpoint) (object : Value) : Prop where
  hash : Holds WritesHash c.hash (object.atKey "hash")
  parentHash : Holds WritesHash c.parentHash (object.atKey "parent_hash")
  stateRoot : Holds WritesHash c.stateRoot (object.atKey "state_root")
  transactionsRoot : Holds WritesHash c.transactionsRoot (object.atKey "transactions_root")
  receiptsRoot : Holds WritesHash c.receiptsRoot (object.atKey "receipts_root")
  number : Holds WritesWord c.number (object.atKey "number")
  timestamp : Holds WritesWord c.timestamp (object.atKey "timestamp")
  extraData : HoldsOrBlank WritesText (· = "") c.extraData (object.atKey "extra_data")
  transactions : HoldsList CheckpointEntry.IsExact c.transactions (object.atKey "transactions")
  size : HoldsOptional WritesWord c.size (object.atKey "size")

structure EpochInfo.IsExact (e : EpochInfo) (object : Value) : Prop where
  epochId : Holds WritesWord e.epochId (object.atKey "epoch_id")
  certificateHash : Holds WritesHash e.certificateHash (object.atKey "certificate_hash")
  certificate : Holds (fun w v => v = w) e.certificate (object.atKey "certificate")

structure Metadata.Entry.IsExact (e : Metadata.Entry) (object : Value) : Prop where
  key : Holds WritesText e.key (object.atKey "key")
  value : Holds WritesText e.value (object.atKey "value")

structure TokenMetadata.IsExact (m : TokenMetadata) (object : Value) : Prop where
  name : Holds WritesText m.name (object.atKey "name")
  uri : Holds WritesText m.uri (object.atKey "uri")
  additional : HoldsList Metadata.Entry.IsExact m.additional (object.atKey "additional_metadata")

structure MintInfo.IsExact (m : MintInfo) (object : Value) : Prop where
  symbol : Holds WritesText m.symbol (object.atKey "symbol")
  masterAuthority : Holds WritesAddress m.masterAuthority (object.atKey "master_authority")
  masterMintBurnAuthority :
    Holds WritesAddress m.masterMintBurnAuthority (object.atKey "master_mint_burn_authority")
  supply : Holds WritesAmount m.supply (object.atKey "supply")
  decimals : Holds WritesWord m.decimals (object.atKey "decimals")
  isPaused : Holds (fun b v => v.truthy = b) m.isPaused (object.atKey "is_paused")
  isPrivate : Holds (fun b v => v.truthy = b) m.isPrivate (object.atKey "is_private")
  pauseAuthorities : HoldsList WritesAddress m.pauseAuthorities (object.atKey "pause_authorities")
  listAuthorities : HoldsList WritesAddress m.listAuthorities (object.atKey "list_authorities")
  blackList : HoldsList WritesAddress m.blackList (object.atKey "black_list")
  whiteList : HoldsList WritesAddress m.whiteList (object.atKey "white_list")
  metadataUpdateAuthorities :
    HoldsList WritesAddress m.metadataUpdateAuthorities (object.atKey "metadata_update_authorities")
  metadata : HoldsOrBlank (fun x v => ∃ i, x = some i ∧ TokenMetadata.IsExact i v) (· = none) m.metadata
    (object.atKey "meta")

/-- Every field of the response is what the value at its key writes. -/
def Response.IsExact (data : Value) : Response → Prop
  | .transactionHash h => WritesHash h data ∨ Holds WritesHash h (data.atKey "hash")
  | .transaction t => t.IsExact data
  | .transactionReceipt r => r.IsExact data
  | .accountNonce n => Holds WritesWord n (data.atKey "nonce")
  | .accountBBNonce n => Holds WritesWord n (data.atKey "bbnonce")
  | .associatedTokenAccount a => a.IsExact data
  | .latestState s => s.IsExact data
  | .chainId n => Holds WritesWord n (data.atKey "chain_id")
  | .checkpointNumber n => Holds WritesWord n (data.atKey "number")
  | .checkpoint c => c.IsExact data
  | .epochInfo e => e.IsExact data
  | .feeEstimate a => Holds WritesAmount a (data.atKey "fee")
  | .mintInfo m => m.IsExact data

/-! ## What is read from a value is what the value writes -/

namespace Response

/-- What is read as such a part comes from a value that writes it. -/
structure Means {α : Type} (part : α → Part) (writes : α → Value → Prop) : Prop where
  holds : ∀ {a o}, (part a).Reads o → Holds writes a o

theorem means_word : Means .word WritesWord where
  holds {n o} h := by
    cases h with
    | wordInt hn => exact ⟨_, rfl, .int hn⟩
    | wordText hs hn => exact ⟨_, rfl, .text (Integer.readLiteral?_eq_some_iff.mp hs) hn⟩

theorem means_amount : Means .amount WritesAmount where
  holds {a o} h := by
    cases h with
    | amountInt => exact ⟨_, rfl, .int a.units_lt⟩
    | @amountText s _ h =>
      have hreads := TokenAmount.reads_ofText s
      rw [h] at hreads
      cases hreads with
      | text hs _ ha => exact ⟨_, rfl, .text hs ha a.units_lt⟩

theorem means_address : Means .address WritesAddress where
  holds {a o} h := by
    cases h with
    | address h =>
      obtain ⟨digits, hform, hlower⟩ := Address.exists_hexForm h
      exact ⟨_, rfl, .text hform (Bytes.ofHexChars_of_lower hlower)⟩

theorem means_hash : Means .hash WritesHash where
  holds {s o} h := by
    cases h with
    | hash hv hs => exact ⟨_, rfl, .text hv hs⟩

theorem means_display : Means .display WritesText where
  holds {s o} h := by
    cases h with
    | display hs => exact ⟨_, rfl, hs⟩

theorem means_truth : Means .truth fun b v => v.truthy = b where
  holds {b o} h := by
    cases h with
    | truth v => exact ⟨v, rfl, rfl⟩

theorem means_flag : Means .flag fun b v => v = .bool b where
  holds {b o} h := by
    cases h with
    | flag => exact ⟨_, rfl, rfl⟩

theorem means_value : Means .value fun w v => v = w where
  holds h := ⟨_, Part.reads_value_iff.mp h, rfl⟩

theorem means_fee : Means .fee fun n v => fee v = .ok n where
  holds {n o} h := by
    cases o with
    | none => exact absurd h describes_fee.not_absent
    | some v => exact ⟨v, rfl, describes_fee.read_eq_ok.mpr h⟩

theorem means_scalar (name : String) : Means (.scalar name) fun n v => Signature.scalar name v = .ok n where
  holds {n o} h := by
    cases h with
    | scalar h => exact ⟨_, rfl, h⟩

section

variable {α : Type} {part : α → Part} {writes : α → Value → Prop}

/-- No part of its own is read from null. -/
theorem Means.optional (h : Means part writes) (hnull : ∀ a, ¬writes a .null) {x : Option α}
    {o : Option Value} (hreads : (Part.ofOption part x).Reads o) : HoldsOptional writes x o := by
  cases x with
  | none =>
    refine ⟨iff_of_true rfl ?_, fun a ha => by cases ha⟩
    cases hreads with
    | absent => exact .inl rfl
    | null => exact .inr rfl
  | some a =>
    obtain ⟨v, rfl, hv⟩ := h.holds hreads
    refine ⟨iff_of_false (fun ha => by cases ha) ?_, ?_⟩
    · rintro (hnone | hnull')
      · cases hnone
      · cases hnull'
        exact hnull a hv
    · rintro a' ⟨⟩
      exact ⟨v, rfl, hv⟩

theorem Means.all (h : Means part writes) {as : List α} {items : List Value}
    (hreads : Part.ReadsAll (as.map part) items) : List.Forall₂ writes as items := by
  induction as generalizing items with
  | nil =>
    cases hreads
    exact .nil
  | cons a as ih =>
    cases hreads with
    | cons ha hrest =>
      obtain ⟨v, hv, hwrites⟩ := h.holds ha
      cases hv
      exact .cons hwrites (ih hrest)

theorem Means.elements (h : Means part writes) {as : List α} {v : Value} {items : List Value}
    (hv : elements v = .ok items) (hreads : Part.ReadsAll (as.map part) items) :
    HoldsList writes as (some v) where
  absent hnone := by cases hnone
  array items' harray := by
    cases harray
    cases hv
    exact h.all hreads
  source _ := ⟨v, items, rfl, hv, h.all hreads⟩

theorem Means.list (h : Means part writes) {as : List α} {o : Option Value}
    (hreads : (Part.list (as.map part)).Reads o) : HoldsList writes as o := by
  generalize hparts : as.map part = parts at hreads
  cases hreads with
  | noList =>
    obtain rfl := List.map_eq_nil_iff.mp hparts
    exact ⟨fun _ => rfl, fun _ hnone => (by cases hnone), fun hne => absurd rfl hne⟩
  | list hv hall =>
    subst hparts
    exact h.elements hv hall

/-- An array that counts as false is empty. -/
theorem Means.listOrNone (h : Means part writes) {as : List α} {o : Option Value}
    (hreads : (Part.listOrNone (as.map part)).Reads o) : HoldsList writes as o := by
  generalize hparts : as.map part = parts at hreads
  cases hreads with
  | blankList hfalse =>
    obtain rfl := List.map_eq_nil_iff.mp hparts
    refine ⟨fun _ => rfl, ?_, fun hne => absurd rfl hne⟩
    rintro items rfl
    cases items with
    | nil => exact .nil
    | cons => cases hfalse
  | fullList _ hv hall =>
    subst hparts
    exact h.elements hv hall

/-- The parts of a record are read at the keys of an object. -/
theorem means_record {fields : α → List (String × Part)} {isExact : α → Value → Prop}
    (h : ∀ {a data}, (∀ f ∈ fields a, f.2.Reads (data.atKey f.1)) → isExact a data) :
    Means (fun a => .record (fields a)) isExact where
  holds hreads := by
    cases hreads with
    | record hfields => exact ⟨_, rfl, h hfields⟩

/-- A record with a single key. -/
theorem Means.single (h : Means part writes) (key : String) :
    Means (fun a => .record [(key, part a)]) fun a object => Holds writes a (object.atKey key) :=
  means_record fun hfields => h.holds (hfields _ List.mem_cons_self)

end

theorem means_signature : Means Signature.part Signature.IsExact := by
  refine means_record fun hfields => ?_
  simp only [List.forall_mem_cons] at hfields
  obtain ⟨hr, hs, hv, -⟩ := hfields
  exact ⟨(means_scalar _).holds hr, (means_scalar _).holds hs, (means_scalar _).holds hv⟩

theorem eq_of_valueOrNull {v : Value} {o : Option Value} (h : (Part.valueOrNull v).Reads o) :
    v = o.getD .null := by
  cases h
  rfl

theorem holdsOrBlank_of_displayOrEmpty {s : Script} {o : Option Value}
    (h : (Part.displayOrEmpty s).Reads o) : HoldsOrBlank WritesText (· = "") s o := by
  cases h with
  | empty hfalse => exact .inl ⟨hfalse, rfl⟩
  | nonempty htrue hs => exact .inr ⟨htrue, _, rfl, hs⟩

theorem not_writesWord_null (n : Nat) : ¬WritesWord n .null := fun h => by cases h

theorem not_writesAddress_null (a : Address) : ¬WritesAddress a .null := fun h => by cases h

theorem not_writesHash_null (s : Script) : ¬WritesHash s .null := by
  rintro ⟨hv, -⟩
  cases hv

theorem means_transaction : Means Transaction.part Transaction.IsExact := by
  refine means_record fun hfields => ?_
  simp only [List.forall_mem_cons] at hfields
  obtain ⟨hhash, hchain, hsender, hnonce, hepoch, hcheckpoint, hsignature, hkind, hdata, hinHash,
    hinNumber, hindex, -⟩ := hfields
  exact {
    hash := means_hash.holds hhash
    chainId := means_word.holds hchain
    sender := means_address.holds hsender
    nonce := means_word.holds hnonce
    recentEpoch := means_word.optional not_writesWord_null hepoch
    recentCheckpoint := means_word.optional not_writesWord_null hcheckpoint
    signature := means_signature.holds hsignature
    kind := eq_of_valueOrNull hkind
    data := ofFault_eq_ok.mp (describes_dictionary.mpr hdata)
    checkpointHash := means_hash.optional not_writesHash_null hinHash
    checkpointNumber := means_word.optional not_writesWord_null hinNumber
    transactionIndex := means_word.optional not_writesWord_null hindex }

theorem means_transactionReceipt : Means TransactionReceipt.part TransactionReceipt.IsExact := by
  refine means_record fun hfields => ?_
  simp only [List.forall_mem_cons] at hfields
  obtain ⟨hsuccess, hfee, hhash, hsender, hrecipient, htoken, hindex, hinHash, hinNumber, -⟩ := hfields
  exact {
    success := means_flag.holds hsuccess
    feeUsed := means_fee.holds hfee
    transactionHash := means_hash.holds hhash
    sender := means_address.holds hsender
    recipient := means_address.optional not_writesAddress_null hrecipient
    tokenAddress := means_address.optional not_writesAddress_null htoken
    transactionIndex := means_word.optional not_writesWord_null hindex
    checkpointHash := means_hash.optional not_writesHash_null hinHash
    checkpointNumber := means_word.optional not_writesWord_null hinNumber }

theorem means_account : Means AssociatedTokenAccount.part AssociatedTokenAccount.IsExact := by
  refine means_record fun hfields => ?_
  simp only [List.forall_mem_cons] at hfields
  obtain ⟨haddress, hbalance, hnonce, -⟩ := hfields
  exact ⟨means_address.holds haddress, means_amount.holds hbalance, means_word.holds hnonce⟩

theorem means_latestState : Means LatestState.part LatestState.IsExact := by
  refine means_record fun hfields => ?_
  simp only [List.forall_mem_cons] at hfields
  obtain ⟨hepoch, hcheckpoint, -⟩ := hfields
  exact ⟨means_word.holds hepoch, means_word.holds hcheckpoint⟩

theorem means_checkpointEntry : Means CheckpointEntry.part CheckpointEntry.IsExact where
  holds {e o} h := by
    cases e with
    | hash s =>
      obtain ⟨v, rfl, hv⟩ := means_hash.holds h
      exact ⟨v, rfl, .hash hv⟩
    | full t =>
      obtain ⟨v, rfl, hv⟩ := means_transaction.holds h
      exact ⟨v, rfl, .full hv⟩

theorem means_checkpoint : Means Checkpoint.part Checkpoint.IsExact := by
  refine means_record fun hfields => ?_
  simp only [List.forall_mem_cons] at hfields
  obtain ⟨hhash, hparent, hstate, htransactions, hreceipts, hnumber, htimestamp, hextra, hentries,
    hsize, -⟩ := hfields
  exact {
    hash := means_hash.holds hhash
    parentHash := means_hash.holds hparent
    stateRoot := means_hash.holds hstate
    transactionsRoot := means_hash.holds htransactions
    receiptsRoot := means_hash.holds hreceipts
    number := means_word.holds hnumber
    timestamp := means_word.holds htimestamp
    extraData := holdsOrBlank_of_displayOrEmpty hextra
    transactions := means_checkpointEntry.listOrNone hentries
    size := means_word.optional not_writesWord_null hsize }

theorem means_epochInfo : Means EpochInfo.part EpochInfo.IsExact := by
  refine means_record fun hfields => ?_
  simp only [List.forall_mem_cons] at hfields
  obtain ⟨hepoch, hhash, hcertificate, -⟩ := hfields
  exact ⟨means_word.holds hepoch, means_hash.holds hhash, means_value.holds hcertificate⟩

theorem means_metadataEntry : Means Metadata.Entry.part Metadata.Entry.IsExact := by
  refine means_record fun hfields => ?_
  simp only [List.forall_mem_cons] at hfields
  obtain ⟨hkey, hvalue, -⟩ := hfields
  exact ⟨means_display.holds hkey, means_display.holds hvalue⟩

theorem means_tokenMetadata : Means TokenMetadata.part TokenMetadata.IsExact := by
  refine means_record fun hfields => ?_
  simp only [List.forall_mem_cons] at hfields
  obtain ⟨hname, huri, hadditional, -⟩ := hfields
  exact ⟨means_display.holds hname, means_display.holds huri, means_metadataEntry.list hadditional⟩

theorem holdsOrBlank_of_metadata {m : Option TokenMetadata} {o : Option Value}
    (h : (m.elim .blank TokenMetadata.part).Reads o) :
    HoldsOrBlank (fun x v => ∃ i, x = some i ∧ TokenMetadata.IsExact i v) (· = none) m o := by
  cases m with
  | none =>
    cases h with
    | blank hfalse => exact .inl ⟨hfalse, rfl⟩
  | some i =>
    obtain ⟨v, rfl, hv⟩ := means_tokenMetadata.holds h
    exact .inr ⟨truthy_of_metadata h, v, rfl, i, rfl, hv⟩

theorem means_mintInfo : Means MintInfo.part MintInfo.IsExact := by
  refine means_record fun hfields => ?_
  simp only [List.forall_mem_cons] at hfields
  obtain ⟨habout, hsymbol, hauthority, hmintBurn, hsupply, hdecimals, hpaused, hprivate, hpausers,
    hlisters, hblack, hwhite, hupdaters, -⟩ := hfields
  exact {
    symbol := means_display.holds hsymbol
    masterAuthority := means_address.holds hauthority
    masterMintBurnAuthority := means_address.holds hmintBurn
    supply := means_amount.holds hsupply
    decimals := means_word.holds hdecimals
    isPaused := means_truth.holds hpaused
    isPrivate := means_truth.holds hprivate
    pauseAuthorities := means_address.list hpausers
    listAuthorities := means_address.list hlisters
    blackList := means_address.list hblack
    whiteList := means_address.list hwhite
    metadataUpdateAuthorities := means_address.list hupdaters
    metadata := holdsOrBlank_of_metadata habout }

/-! ## Decoding -/

theorem Means.of_form {α : Type} {part : α → Part} {writes : α → Value → Prop} (h : Means part writes)
    {a : α} {data : Value} (hform : ∃ p ∈ [part a], p.Reads (some data)) : writes a data := by
  obtain ⟨p, hp, hreads⟩ := hform
  obtain rfl := List.mem_singleton.mp hp
  obtain ⟨v, hv, hwrites⟩ := h.holds hreads
  cases hv
  exact hwrites

theorem hash_of_form {s : Script} {data : Value}
    (hform : ∃ p ∈ (Response.transactionHash s).forms, p.Reads (some data)) :
    WritesHash s data ∨ Holds WritesHash s (data.atKey "hash") := by
  obtain ⟨p, hp, hreads⟩ := hform
  rcases List.mem_cons.mp hp with rfl | hp
  · exact .inl (means_hash.of_form ⟨_, List.mem_singleton_self _, hreads⟩)
  · exact .inr ((means_hash.single "hash").of_form ⟨p, hp, hreads⟩)

/-- Whatever is decoded, each of its fields is what the value at its key writes, in range and in order. -/
theorem decode_exact {type : ResponseType} {data : Value} {r : Response}
    (h : decode type data = .ok r) : r.type = type ∧ r.IsExact data := by
  obtain rfl := type_of_decode h
  have hform := decode_eq_ok.mp h
  refine ⟨rfl, ?_⟩
  cases r with
  | transactionHash s => exact hash_of_form hform
  | transaction t => exact means_transaction.of_form hform
  | transactionReceipt r => exact means_transactionReceipt.of_form hform
  | accountNonce n => exact (means_word.single "nonce").of_form hform
  | accountBBNonce n => exact (means_word.single "bbnonce").of_form hform
  | associatedTokenAccount a => exact means_account.of_form hform
  | latestState s => exact means_latestState.of_form hform
  | chainId n => exact (means_word.single "chain_id").of_form hform
  | checkpointNumber n => exact (means_word.single "number").of_form hform
  | checkpoint c => exact means_checkpoint.of_form hform
  | epochInfo e => exact means_epochInfo.of_form hform
  | feeEstimate a => exact (means_amount.single "fee").of_form hform
  | mintInfo m => exact means_mintInfo.of_form hform

/-- An account whose balance is a text and whose nonce is a literal in another base. -/
def writtenAccount : Value :=
  Value.record [("token_account_address", zeroText), ("balance", .text " 0500 "),
    ("nonce", .text "0x_1F")]

theorem decode_writtenAccount :
    decode .associatedTokenAccount writtenAccount =
      .ok (.associatedTokenAccount ⟨.zero, ⟨500, by decide⟩, 31⟩) ∧
    AssociatedTokenAccount.IsExact ⟨.zero, ⟨500, by decide⟩, 31⟩ writtenAccount := by
  have hdecode : decode .associatedTokenAccount writtenAccount =
      .ok (.associatedTokenAccount ⟨.zero, ⟨500, by decide⟩, 31⟩) := rfl
  exact ⟨hdecode, (decode_exact hdecode).2⟩

end Response

end LedgerClient
