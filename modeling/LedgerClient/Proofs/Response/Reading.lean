import LedgerClient.Proofs.Json.Reading
import LedgerClient.Proofs.Response.Part

/-!
# Records and their parts

Each decoder accepts exactly the objects from which every part of its record can be read.
-/

namespace LedgerClient

open Response (Part)

/-! ## The parts of a record -/

def Signature.part (sig : Signature) : Part :=
  .record [("r", .scalar "r" sig.r), ("s", .scalar "s" sig.s), ("v", .scalar "v" sig.v)]

def Transaction.part (t : Transaction) : Part :=
  .record [("hash", .hash t.hash), ("chain_id", .word t.chainId), ("from", .address t.sender),
    ("nonce", .word t.nonce), ("recent_epoch", .ofOption .word t.recentEpoch),
    ("recent_checkpoint", .ofOption .word t.recentCheckpoint), ("signature", t.signature.part),
    ("transaction_type", .valueOrNull t.kind), ("data", .dictionary t.data),
    ("checkpoint_hash", .ofOption .hash t.checkpointHash),
    ("checkpoint_number", .ofOption .word t.checkpointNumber),
    ("transaction_index", .ofOption .word t.transactionIndex)]

def TransactionReceipt.part (r : TransactionReceipt) : Part :=
  .record [("success", .flag r.success), ("fee_used", .fee r.feeUsed),
    ("transaction_hash", .hash r.transactionHash), ("from", .address r.sender),
    ("to", .ofOption .address r.recipient), ("token_address", .ofOption .address r.tokenAddress),
    ("transaction_index", .ofOption .word r.transactionIndex),
    ("checkpoint_hash", .ofOption .hash r.checkpointHash),
    ("checkpoint_number", .ofOption .word r.checkpointNumber)]

def AssociatedTokenAccount.part (a : AssociatedTokenAccount) : Part :=
  .record [("token_account_address", .address a.address), ("balance", .amount a.balance),
    ("nonce", .word a.nonce)]

def LatestState.part (s : LatestState) : Part :=
  .record [("epoch", .word s.epoch), ("checkpoint", .word s.checkpoint)]

def CheckpointEntry.part : CheckpointEntry → Part
  | .hash h => .hash h
  | .full t => t.part

def Checkpoint.part (c : Checkpoint) : Part :=
  .record [("hash", .hash c.hash), ("parent_hash", .hash c.parentHash),
    ("state_root", .hash c.stateRoot), ("transactions_root", .hash c.transactionsRoot),
    ("receipts_root", .hash c.receiptsRoot), ("number", .word c.number),
    ("timestamp", .word c.timestamp), ("extra_data", .displayOrEmpty c.extraData),
    ("transactions", .listOrNone (c.transactions.map CheckpointEntry.part)),
    ("size", .ofOption .word c.size)]

def EpochInfo.part (e : EpochInfo) : Part :=
  .record [("epoch_id", .word e.epochId), ("certificate_hash", .hash e.certificateHash),
    ("certificate", .value e.certificate)]

def Metadata.Entry.part (e : Metadata.Entry) : Part :=
  .record [("key", .display e.key), ("value", .display e.value)]

def TokenMetadata.part (m : TokenMetadata) : Part :=
  .record [("name", .display m.name), ("uri", .display m.uri),
    ("additional_metadata", .list (m.additional.map Metadata.Entry.part))]

def MintInfo.part (m : MintInfo) : Part :=
  .record [("meta", m.metadata.elim .blank TokenMetadata.part), ("symbol", .display m.symbol),
    ("master_authority", .address m.masterAuthority),
    ("master_mint_burn_authority", .address m.masterMintBurnAuthority),
    ("supply", .amount m.supply), ("decimals", .word m.decimals), ("is_paused", .truth m.isPaused),
    ("is_private", .truth m.isPrivate), ("pause_authorities", .list (m.pauseAuthorities.map .address)),
    ("list_authorities", .list (m.listAuthorities.map .address)),
    ("black_list", .list (m.blackList.map .address)), ("white_list", .list (m.whiteList.map .address)),
    ("metadata_update_authorities", .list (m.metadataUpdateAuthorities.map .address))]

namespace Response

def type : Response → ResponseType
  | .transactionHash _ => .transactionHash
  | .transaction _ => .transaction
  | .transactionReceipt _ => .transactionReceipt
  | .accountNonce _ => .accountNonce
  | .accountBBNonce _ => .accountBBNonce
  | .associatedTokenAccount _ => .associatedTokenAccount
  | .latestState _ => .latestState
  | .chainId _ => .chainId
  | .checkpointNumber _ => .checkpointNumber
  | .checkpoint _ => .checkpoint
  | .epochInfo _ => .epochInfo
  | .feeEstimate _ => .feeEstimate
  | .mintInfo _ => .mintInfo

/-- The forms of a response: the answer to a submission may be a bare hash. -/
def forms : Response → List Part
  | .transactionHash h => [.hash h, .record [("hash", .hash h)]]
  | .transaction t => [t.part]
  | .transactionReceipt r => [r.part]
  | .accountNonce n => [.record [("nonce", .word n)]]
  | .accountBBNonce n => [.record [("bbnonce", .word n)]]
  | .associatedTokenAccount a => [a.part]
  | .latestState s => [s.part]
  | .chainId n => [.record [("chain_id", .word n)]]
  | .checkpointNumber n => [.record [("number", .word n)]]
  | .checkpoint c => [c.part]
  | .epochInfo e => [e.part]
  | .feeEstimate a => [.record [("fee", .amount a)]]
  | .mintInfo m => [m.part]

end Response

/-! ## The readers of records -/

section

variable {α : Type} {read : Value → Result α} {fields : α → List (String × Part)}

theorem Response.describes_record
    (hdict : ∀ data a, read data = .ok a → ∃ entries, data = .dict entries)
    (hread : ∀ entries a, read (.dict entries) = .ok a ↔
      ∀ f ∈ fields a, f.2.Reads (Value.lookup f.1 entries)) :
    Response.Describes read fun a => .record (fields a) where
  not_absent h := by cases h
  read_eq_ok {data a} := by
    rw [Part.reads_record_iff]
    constructor
    · intro h
      obtain ⟨entries, rfl⟩ := hdict data a h
      exact ⟨entries, rfl, (hread entries a).mp h⟩
    · rintro ⟨entries, rfl, h⟩
      exact (hread entries a).mpr h

end

namespace Response

theorem describes_signature :
    Describes (fun v => Result.ofFault (Signature.ofDict v)) Signature.part := by
  refine describes_record (fun _ _ h => eq_dict_of_fault_bind h) fun entries sig => ?_
  rw [ofFault_eq_ok, Signature.ofDict]
  simp only [(describes_scalar _).fault_bind, pure_eq_ok, List.forall_mem_cons]
  constructor
  · rintro ⟨r, hr, s, hs, v, hv, rfl⟩
    exact ⟨hr, hs, hv, List.forall_mem_nil _⟩
  · rintro ⟨hr, hs, hv, -⟩
    exact ⟨_, hr, _, hs, _, hv, rfl⟩

theorem describes_transaction : Describes Transaction.ofValue Transaction.part := by
  refine describes_record (fun _ _ h => eq_dict_of_require_bind (shaped_eq_ok.mp h)) fun entries t => ?_
  rw [Transaction.ofValue, shaped_eq_ok]
  simp only [describes_hash.require_bind, describes_word.require_bind, describes_address.require_bind,
    optionalWord_bind, optionalHash_bind, describes_signature.require_bind,
    describes_dictionary.optional_bind, optional_value_bind "transaction_type", pure_eq_ok,
    List.forall_mem_cons]
  constructor
  · rintro ⟨hash, hhash, chain, hchain, sender, hsender, nonce, hnonce, epoch, hepoch, recent,
      hrecent, sig, hsig, kind, hkind, es, hes, inHash, hinHash, inNumber, hinNumber, index,
      hindex, rfl⟩
    exact ⟨hhash, hchain, hsender, hnonce, hepoch, hrecent, hsig, hkind, hes, hinHash, hinNumber,
      hindex, List.forall_mem_nil _⟩
  · rintro ⟨hhash, hchain, hsender, hnonce, hepoch, hrecent, hsig, hkind, hes, hinHash, hinNumber,
      hindex, -⟩
    exact ⟨_, hhash, _, hchain, _, hsender, _, hnonce, _, hepoch, _, hrecent, _, hsig, _, hkind, _,
      hes, _, hinHash, _, hinNumber, _, hindex, rfl⟩

theorem describes_transactionReceipt :
    Describes TransactionReceipt.ofValue TransactionReceipt.part := by
  refine describes_record (fun _ _ h => eq_dict_of_require_bind (shaped_eq_ok.mp h)) fun entries r => ?_
  rw [TransactionReceipt.ofValue, shaped_eq_ok]
  simp only [describes_flag.require_bind, describes_fee.require_bind, describes_hash.require_bind,
    describes_address.require_bind, optionalAddress_bind, optionalWord_bind, optionalHash_bind,
    pure_eq_ok, List.forall_mem_cons]
  constructor
  · rintro ⟨success, hsuccess, used, hused, hash, hhash, sender, hsender, recipient, hrecipient,
      token, htoken, index, hindex, inHash, hinHash, inNumber, hinNumber, rfl⟩
    exact ⟨hsuccess, hused, hhash, hsender, hrecipient, htoken, hindex, hinHash, hinNumber,
      List.forall_mem_nil _⟩
  · rintro ⟨hsuccess, hused, hhash, hsender, hrecipient, htoken, hindex, hinHash, hinNumber, -⟩
    exact ⟨_, hsuccess, _, hused, _, hhash, _, hsender, _, hrecipient, _, htoken, _, hindex, _,
      hinHash, _, hinNumber, rfl⟩

theorem describes_account :
    Describes AssociatedTokenAccount.ofValue AssociatedTokenAccount.part := by
  refine describes_record (fun _ _ h => eq_dict_of_require_bind (shaped_eq_ok.mp h)) fun entries a => ?_
  rw [AssociatedTokenAccount.ofValue, shaped_eq_ok]
  simp only [describes_address.require_bind, describes_amount.require_bind,
    describes_word.require_bind, pure_eq_ok, List.forall_mem_cons]
  constructor
  · rintro ⟨address, haddress, balance, hbalance, nonce, hnonce, rfl⟩
    exact ⟨haddress, hbalance, hnonce, List.forall_mem_nil _⟩
  · rintro ⟨haddress, hbalance, hnonce, -⟩
    exact ⟨_, haddress, _, hbalance, _, hnonce, rfl⟩

theorem describes_latestState : Describes LatestState.ofValue LatestState.part := by
  refine describes_record (fun _ _ h => eq_dict_of_require_bind (shaped_eq_ok.mp h)) fun entries s => ?_
  rw [LatestState.ofValue, shaped_eq_ok]
  simp only [describes_word.require_bind, pure_eq_ok, List.forall_mem_cons]
  constructor
  · rintro ⟨epoch, hepoch, checkpoint, hcheckpoint, rfl⟩
    exact ⟨hepoch, hcheckpoint, List.forall_mem_nil _⟩
  · rintro ⟨hepoch, hcheckpoint, -⟩
    exact ⟨_, hepoch, _, hcheckpoint, rfl⟩

theorem describes_checkpointEntry : Describes CheckpointEntry.ofValue CheckpointEntry.part where
  not_absent {e} h := by
    cases e with
    | hash => cases h
    | full => cases h
  read_eq_ok {v e} := by
    have hfull (htext : v.text? = none) :
        (Transaction.ofValue v >>= fun t => .ok (CheckpointEntry.full t)) = .ok e ↔
          e.part.Reads (some v) := by
      rw [bind_eq_ok]
      cases e with
      | hash h =>
        refine iff_of_false ?_ ?_
        · rintro ⟨t, -, heq⟩
          cases heq
        · intro hreads
          cases hreads with
          | hash hv =>
            rw [htext] at hv
            cases hv
      | full t =>
        constructor
        · rintro ⟨t', ht', heq⟩
          cases heq
          exact describes_transaction.read_eq_ok.mp ht'
        · intro hreads
          exact ⟨t, describes_transaction.read_eq_ok.mpr hreads, rfl⟩
    have hbare (hrecord : ∀ entries, v ≠ .dict entries) :
        (hashText v >>= fun h => .ok (CheckpointEntry.hash h)) = .ok e ↔ e.part.Reads (some v) := by
      rw [bind_eq_ok]
      cases e with
      | hash h =>
        constructor
        · rintro ⟨h', hh', heq⟩
          cases heq
          exact describes_hash.read_eq_ok.mp hh'
        · intro hreads
          exact ⟨h, describes_hash.read_eq_ok.mpr hreads, rfl⟩
      | full t =>
        refine iff_of_false ?_ ?_
        · rintro ⟨h, -, heq⟩
          cases heq
        · intro hreads
          cases hreads
          exact hrecord _ rfl
    cases v with
    | text s => exact hbare fun entries => Value.noConfusion
    | torn t => exact hbare fun entries => Value.noConfusion
    | _ => exact hfull rfl

theorem describes_checkpoint : Describes Checkpoint.ofValue Checkpoint.part := by
  refine describes_record (fun _ _ h => eq_dict_of_require_bind (shaped_eq_ok.mp h)) fun entries c => ?_
  rw [Checkpoint.ofValue, shaped_eq_ok]
  simp only [describes_hash.require_bind, describes_word.require_bind,
    describes_displayOrEmpty.optional_bind, listOrNone_bind describes_checkpointEntry,
    optionalWord_bind, pure_eq_ok, List.forall_mem_cons]
  constructor
  · rintro ⟨hash, hhash, parent, hparent, state, hstate, txs, htxs, receipts, hreceipts, number,
      hnumber, timestamp, htimestamp, extra, hextra, transactions, htransactions, size, hsize, rfl⟩
    exact ⟨hhash, hparent, hstate, htxs, hreceipts, hnumber, htimestamp, hextra, htransactions,
      hsize, List.forall_mem_nil _⟩
  · rintro ⟨hhash, hparent, hstate, htxs, hreceipts, hnumber, htimestamp, hextra, htransactions,
      hsize, -⟩
    exact ⟨_, hhash, _, hparent, _, hstate, _, htxs, _, hreceipts, _, hnumber, _, htimestamp, _,
      hextra, _, htransactions, _, hsize, rfl⟩

theorem describes_epochInfo : Describes EpochInfo.ofValue EpochInfo.part := by
  refine describes_record (fun _ _ h => eq_dict_of_require_bind (shaped_eq_ok.mp h)) fun entries e => ?_
  rw [EpochInfo.ofValue, shaped_eq_ok]
  simp only [describes_word.require_bind, describes_hash.require_bind,
    require_value_bind "certificate", pure_eq_ok, List.forall_mem_cons]
  constructor
  · rintro ⟨epoch, hepoch, hash, hhash, certificate, hcertificate, rfl⟩
    exact ⟨hepoch, hhash, hcertificate, List.forall_mem_nil _⟩
  · rintro ⟨hepoch, hhash, hcertificate, -⟩
    exact ⟨_, hepoch, _, hhash, _, hcertificate, rfl⟩

theorem describes_metadataEntry : Describes Metadata.Entry.ofValue Metadata.Entry.part := by
  refine describes_record (fun _ _ h => eq_dict_of_fault_bind h) fun entries e => ?_
  rw [Metadata.Entry.ofValue, ofFault_eq_ok, Metadata.Entry.ofDict]
  simp only [describes_display.fault_bind, pure_eq_ok, List.forall_mem_cons]
  constructor
  · rintro ⟨key, hkey, value, hvalue, rfl⟩
    exact ⟨hkey, hvalue, List.forall_mem_nil _⟩
  · rintro ⟨hkey, hvalue, -⟩
    exact ⟨_, hkey, _, hvalue, rfl⟩

theorem describes_tokenMetadata : Describes TokenMetadata.ofValue TokenMetadata.part := by
  refine describes_record (fun _ _ h => eq_dict_of_require_bind h) fun entries m => ?_
  rw [TokenMetadata.ofValue]
  simp only [describes_displayed.require_bind, listAt_bind describes_metadataEntry, pure_eq_ok,
    List.forall_mem_cons]
  constructor
  · rintro ⟨name, hname, uri, huri, additional, hadditional, rfl⟩
    exact ⟨hname, huri, hadditional, List.forall_mem_nil _⟩
  · rintro ⟨hname, huri, hadditional, -⟩
    exact ⟨_, hname, _, huri, _, hadditional, rfl⟩

/-- An object that counts as false is empty, and metadata needs a name. -/
theorem truthy_of_metadata {m : TokenMetadata} {o : Option Value} (h : m.part.Reads o) :
    (o.getD .null).truthy = true := by
  cases h with
  | @record _ entries hfields =>
    cases entries with
    | nil => cases hfields _ List.mem_cons_self
    | cons => rfl

/-- Metadata is read unless what stands at its key counts as false. -/
theorem metadata_bind {β : Type} {o : Option Value} {f : Option TokenMetadata → Result β} {b : β} :
    (if (o.getD .null).truthy = true then (TokenMetadata.ofValue (o.getD .null)).map some >>= f
      else pure none >>= f) = .ok b ↔
      ∃ m : Option TokenMetadata, (m.elim .blank TokenMetadata.part).Reads o ∧ f m = .ok b := by
  have hsome (v : Value) (f : Option TokenMetadata → Result β) :
      (TokenMetadata.ofValue v).map some >>= f = TokenMetadata.ofValue v >>= fun m => f (some m) := by
    cases TokenMetadata.ofValue v with
    | error e => rfl
    | ok m => rfl
  cases htrue : (o.getD .null).truthy with
  | false =>
    constructor
    · intro h
      exact ⟨none, .blank htrue, h⟩
    · rintro ⟨m, hreads, h⟩
      cases m with
      | none => exact h
      | some m =>
        rw [truthy_of_metadata hreads] at htrue
        cases htrue
  | true =>
    rw [if_pos rfl, hsome, bind_eq_ok]
    cases o with
    | none => cases htrue
    | some v =>
      constructor
      · rintro ⟨m, hm, h⟩
        exact ⟨some m, describes_tokenMetadata.read_eq_ok.mp hm, h⟩
      · rintro ⟨m, hreads, h⟩
        cases m with
        | none =>
          cases hreads with
          | blank hfalse => rw [hfalse] at htrue; cases htrue
        | some m => exact ⟨m, describes_tokenMetadata.read_eq_ok.mpr hreads, h⟩

theorem describes_mintInfo : Describes MintInfo.ofValue MintInfo.part := by
  refine describes_record (fun _ _ h => eq_dict_of_optional_bind (shaped_eq_ok.mp h)) fun entries m => ?_
  rw [MintInfo.ofValue, shaped_eq_ok, optional_bind]
  simp only [describes_displayed.require_bind, describes_address.require_bind,
    describes_amount.require_bind, describes_word.require_bind, require_value_bind "is_paused",
    require_value_bind "is_private", listAt_bind describes_address, metadata_bind, pure_eq_ok,
    List.forall_mem_cons]
  constructor
  · rintro ⟨symbol, hsymbol, authority, hauthority, mintBurn, hmintBurn, supply, hsupply, decimals,
      hdecimals, paused, hpaused, priv, hpriv, pausers, hpausers, listers, hlisters, black, hblack,
      white, hwhite, updaters, hupdaters, about, habout, rfl⟩
    exact ⟨habout, hsymbol, hauthority, hmintBurn, hsupply, hdecimals,
      Part.reads_truth_iff.mpr ⟨paused, hpaused, rfl⟩, Part.reads_truth_iff.mpr ⟨priv, hpriv, rfl⟩,
      hpausers, hlisters, hblack, hwhite, hupdaters, List.forall_mem_nil _⟩
  · rintro ⟨habout, hsymbol, hauthority, hmintBurn, hsupply, hdecimals, htpaused, htpriv, hpausers,
      hlisters, hblack, hwhite, hupdaters, -⟩
    obtain ⟨paused, hpaused, hp⟩ := Part.reads_truth_iff.mp htpaused
    obtain ⟨priv, hpriv, hq⟩ := Part.reads_truth_iff.mp htpriv
    refine ⟨_, hsymbol, _, hauthority, _, hmintBurn, _, hsupply, _, hdecimals, paused, hpaused,
      priv, hpriv, _, hpausers, _, hlisters, _, hblack, _, hwhite, _, hupdaters, _, habout, ?_⟩
    rw [hp, hq]

theorem describes_singleWord (typeName key : String) :
    Describes (singleWord typeName key) fun n => .record [(key, .word n)] := by
  refine describes_record (fun _ _ h => eq_dict_of_require_bind (shaped_eq_ok.mp h)) fun entries n => ?_
  rw [singleWord, shaped_eq_ok, describes_word.require_eq_ok, List.forall_mem_singleton]

theorem describes_estimatedFee : Describes estimatedFee fun a => .record [("fee", .amount a)] := by
  refine describes_record (fun _ _ h => eq_dict_of_require_bind (shaped_eq_ok.mp h)) fun entries a => ?_
  rw [estimatedFee, shaped_eq_ok, describes_amount.require_eq_ok, List.forall_mem_singleton]

theorem describes_hashRecord : Describes (fun data => require data "hash" >>= hashText)
    fun h => .record [("hash", .hash h)] := by
  refine describes_record (fun _ _ hread => eq_dict_of_require_bind hread) fun entries h => ?_
  rw [describes_hash.require_eq_ok, List.forall_mem_singleton]

/-- The answer to a submission is a text or an object, never both. -/
theorem submittedHash_eq_ok {data : Value} {h : Script} :
    submittedHash data = .ok h ↔ ∃ p ∈ (Response.transactionHash h).forms, p.Reads (some data) := by
  unfold submittedHash
  rw [shaped_eq_ok, forms]
  simp only [List.mem_cons, List.not_mem_nil, or_false, exists_eq_or_imp, exists_eq_left]
  have hbare (hrecord : ∀ entries, data ≠ .dict entries) : hashText data = .ok h ↔
      (Part.hash h).Reads (some data) ∨ (Part.record [("hash", .hash h)]).Reads (some data) := by
    refine describes_hash.read_eq_ok.trans (or_iff_left fun hreads => ?_).symm
    cases hreads
    exact hrecord _ rfl
  have hinside (htext : data.text? = none) : (require data "hash" >>= hashText) = .ok h ↔
      (Part.hash h).Reads (some data) ∨ (Part.record [("hash", .hash h)]).Reads (some data) := by
    refine describes_hashRecord.read_eq_ok.trans (or_iff_right fun hreads => ?_).symm
    cases hreads with
    | hash hv =>
      rw [htext] at hv
      cases hv
  cases data with
  | text s => exact hbare fun entries => Value.noConfusion
  | torn t => exact hbare fun entries => Value.noConfusion
  | _ => exact hinside rfl

/-! ## Decoding -/

theorem type_of_decode {type : ResponseType} {data : Value} {r : Response}
    (h : decode type data = .ok r) : r.type = type := by
  cases type with
  | _ =>
    obtain ⟨a, -, rfl⟩ := map_eq_ok.mp h
    rfl

theorem decode_form {α : Type} {read : Value → Result α} {part : α → Part} {ctor : α → Response}
    (h : Describes read part) (hinj : ∀ a b, ctor a = ctor b → a = b) {data : Value} {a : α} :
    (read data).map ctor = .ok (ctor a) ↔ ∃ p ∈ [part a], p.Reads (some data) := by
  rw [map_eq_ok]
  simp only [List.mem_singleton, exists_eq_left]
  constructor
  · rintro ⟨b, hb, heq⟩
    rw [← hinj b a heq]
    exact h.read_eq_ok.mp hb
  · intro hreads
    exact ⟨a, h.read_eq_ok.mpr hreads, rfl⟩

theorem decode_eq_ok {data : Value} {r : Response} :
    decode r.type data = .ok r ↔ ∃ p ∈ r.forms, p.Reads (some data) := by
  cases r with
  | transactionHash h =>
    rw [← submittedHash_eq_ok]
    show (submittedHash data).map Response.transactionHash = _ ↔ _
    rw [map_eq_ok]
    simp only [Response.transactionHash.injEq, exists_eq_right]
  | transaction t => exact decode_form describes_transaction fun _ _ => Response.transaction.inj
  | transactionReceipt r =>
    exact decode_form describes_transactionReceipt fun _ _ => Response.transactionReceipt.inj
  | accountNonce n => exact decode_form (describes_singleWord _ _) fun _ _ => Response.accountNonce.inj
  | accountBBNonce n =>
    exact decode_form (describes_singleWord _ _) fun _ _ => Response.accountBBNonce.inj
  | associatedTokenAccount a =>
    exact decode_form describes_account fun _ _ => Response.associatedTokenAccount.inj
  | latestState s => exact decode_form describes_latestState fun _ _ => Response.latestState.inj
  | chainId n => exact decode_form (describes_singleWord _ _) fun _ _ => Response.chainId.inj
  | checkpointNumber n =>
    exact decode_form (describes_singleWord _ _) fun _ _ => Response.checkpointNumber.inj
  | checkpoint c => exact decode_form describes_checkpoint fun _ _ => Response.checkpoint.inj
  | epochInfo e => exact decode_form describes_epochInfo fun _ _ => Response.epochInfo.inj
  | feeEstimate a => exact decode_form describes_estimatedFee fun _ _ => Response.feeEstimate.inj
  | mintInfo m => exact decode_form describes_mintInfo fun _ _ => Response.mintInfo.inj

/-- Decoding accepts exactly the values from which every part of a record of the type can be read, and
all others it refuses by the error that they do not have the expected shape. -/
theorem decode_accepts (type : ResponseType) (data : Value) :
    (∀ r, decode type data = .ok r ↔ r.type = type ∧ ∃ p ∈ r.forms, p.Reads (some data)) ∧
      FailsOnly Failure.IsWrongShape (decode type data) := by
  refine ⟨fun r => ?_, failsOnly_decode type data⟩
  constructor
  · intro h
    have htype := type_of_decode h
    subst htype
    exact ⟨rfl, decode_eq_ok.mp h⟩
  · rintro ⟨rfl, h⟩
    exact decode_eq_ok.mpr h

def zeroText : Value := .text "0x0000000000000000000000000000000000000000"

/-- A token without a symbol that is paused in words. -/
def pausedInWords : Value :=
  Value.record [("symbol", .null), ("master_authority", zeroText),
    ("master_mint_burn_authority", zeroText), ("supply", .int 0), ("decimals", .int 6),
    ("is_paused", .text "false"), ("is_private", .bool false)]

/-- A missing symbol is reported as a text and the text of a truth value as its opposite. -/
theorem decode_pausedInWords : ∃ m, Response.decode .mintInfo pausedInWords = .ok (.mintInfo m) ∧
    m.symbol = "None" ∧ m.isPaused = true :=
  ⟨_, rfl, rfl, rfl⟩

end Response

end LedgerClient
