import LedgerClient.Client.Exchange
import LedgerClient.Proofs.Address

/-!
# How decoding fails

Every part of a record is refused by an error about an encoding, by the error of a nested record, or
by a fault about a wrong shape. The reader of a record turns all of these into one error, that the
record does not have the expected shape, so a decoder of a record fails in no other way.
-/

namespace LedgerClient

/-! ## The text of a value -/

namespace Value

/-- The fault is about a value of a wrong shape. -/
def IsShapeFault (f : Fault) : Prop := f.isShape = true

theorem failsOnly_integerText (n : Int) : FailsOnly IsShapeFault (integerText n) := by
  unfold integerText
  split
  · exact .ok _
  · exact .error rfl

theorem failsOnly_hexText (v : Value) : FailsOnly IsShapeFault (hexText v) := by
  unfold hexText
  split
  · exact .ok _
  · exact .error rfl

mutual

theorem failsOnly_shown (full : Bool) (v : Value) : FailsOnly IsShapeFault (shown full v) := by
  cases v with
  | int n => exact failsOnly_integerText n
  | list items => exact .bind (failsOnly_shownItems items) fun _ _ => .ok _
  | tuple items => exact .bind (failsOnly_shownItems items) fun _ _ => .ok _
  | dict entries => exact .bind (failsOnly_shownEntries entries) fun _ _ => .ok _
  | member family name value =>
    cases full with
    | false => exact .ok _
    | true => exact .bind (failsOnly_shown true value) fun _ _ => .ok _
  | pair key value =>
    exact .bind (failsOnly_shown true key) fun _ _ =>
      .bind (failsOnly_shown true value) fun _ _ => .ok _
  | signature r s v =>
    exact .bind (failsOnly_hexText r) fun _ _ => .bind (failsOnly_hexText s) fun _ _ =>
      .bind (failsOnly_shown false v) fun _ _ => .ok _
  | poll attempts interval =>
    exact .bind (failsOnly_shown true attempts) fun _ _ =>
      .bind (failsOnly_shown true interval) fun _ _ => .ok _
  | payload variant fields => exact .bind (failsOnly_shownItems fields) fun _ _ => .ok _
  | _ => exact .ok _

theorem failsOnly_shownItems : (items : List Value) → FailsOnly IsShapeFault (shownItems items)
  | [] => .ok _
  | v :: rest =>
    .bind (failsOnly_shown true v) fun _ _ => .bind (failsOnly_shownItems rest) fun _ _ => .ok _

theorem failsOnly_shownEntries :
    (entries : List (Value × Value)) → FailsOnly IsShapeFault (shownEntries entries)
  | [] => .ok _
  | (key, value) :: rest =>
    .bind (failsOnly_shown true key) fun _ _ => .bind (failsOnly_shown true value) fun _ _ =>
      .bind (failsOnly_shownEntries rest) fun _ _ => .ok _

end

theorem failsOnly_script (v : Value) : FailsOnly IsShapeFault v.script := by
  unfold script
  split
  · exact .ok _
  · exact (failsOnly_shown false v).map _

theorem failsOnly_require (key : String) (v : Value) : FailsOnly IsShapeFault (v.require key) := by
  unfold require
  split
  · split
    · exact .ok _
    · exact .error rfl
  · exact .error rfl

theorem failsOnly_optional (key : String) (v : Value) : FailsOnly IsShapeFault (v.optional key) := by
  unfold optional
  split
  · exact .ok _
  · exact .error rfl

/-- Only a dictionary has a value at a key. -/
theorem eq_dict_of_require {data v : Value} {key : String} (h : data.require key = .ok v) :
    ∃ entries, data = .dict entries := by
  cases data with
  | dict entries => exact ⟨entries, rfl⟩
  | _ => cases h

theorem eq_dict_of_optional {data v : Value} {key : String} (h : data.optional key = .ok v) :
    ∃ entries, data = .dict entries := by
  cases data with
  | dict entries => exact ⟨entries, rfl⟩
  | _ => cases h

end Value

/-! ## Refusals -/

/-- Why a part of a record is refused. -/
inductive Failure.IsRefusal : Failure → Prop where
  | encoding (cause : EncodingCause) : IsRefusal (.client (.encoding cause))
  | shape (typeName why : String) (underlying : Option String) :
      IsRefusal (.client (.unexpectedShape typeName why underlying))
  | fault {f : Fault} (h : Value.IsShapeFault f) : IsRefusal (.fault f)

/-- The error that a record does not have the expected shape. -/
def Failure.IsWrongShape (f : Failure) : Prop :=
  ∃ typeName why underlying, f = .client (.unexpectedShape typeName why underlying)

open Failure

theorem Failure.IsWrongShape.isRefusal {f : Failure} (h : f.IsWrongShape) : f.IsRefusal := by
  obtain ⟨typeName, why, underlying, rfl⟩ := h
  exact .shape typeName why underlying

theorem Failure.IsEncoding.isRefusal {f : Failure} (h : f.IsEncoding) : f.IsRefusal := by
  obtain ⟨cause, rfl⟩ := h
  exact .encoding cause

section

variable {α : Type}

theorem failsOnly_ofFault {x : Except Fault α} (h : FailsOnly Value.IsShapeFault x) :
    FailsOnly IsRefusal (Result.ofFault x) := by
  cases x with
  | error f => exact .error (.fault (h f rfl))
  | ok a => exact .ok a

theorem failsOnly_fail (cause : EncodingCause) :
    FailsOnly IsRefusal (Result.fail (.encoding cause) : Result α) :=
  .error (.encoding cause)

theorem Address.failsOnly_decode (v : Value) : FailsOnly IsRefusal (Address.decode v) :=
  (Address.isEncoding_decode v).mono fun _ h => h.isRefusal

namespace TokenAmount

theorem failsOnly_ofInt (n : Int) : FailsOnly IsRefusal (ofInt n) := by
  unfold ofInt
  split
  · exact .ok _
  · exact .bind (failsOnly_ofFault (Value.failsOnly_integerText n)) fun _ _ => failsOnly_fail _

theorem failsOnly_ofText (s : String) : FailsOnly IsRefusal (ofText s) := by
  unfold ofText
  split
  · exact failsOnly_fail _
  · split
    · exact .error (.fault rfl)
    · exact failsOnly_ofInt _

end TokenAmount

theorem Signature.failsOnly_scalar (name : String) (v : Value) :
    FailsOnly Value.IsShapeFault (scalar name v) := by
  unfold scalar
  split
  · exact .error rfl
  · exact .ok _
  · simp only
    split
    · exact .ok _
    · exact .error rfl
  · exact .error rfl
  · exact .error rfl

theorem Signature.failsOnly_ofDict (data : Value) : FailsOnly Value.IsShapeFault (ofDict data) :=
  .bind (Value.failsOnly_require "r" data) fun _ _ => .bind (failsOnly_scalar "r" _) fun _ _ =>
    .bind (Value.failsOnly_require "s" data) fun _ _ => .bind (failsOnly_scalar "s" _) fun _ _ =>
      .bind (Value.failsOnly_require "v" data) fun _ _ => .bind (failsOnly_scalar "v" _) fun _ _ =>
        .ok _

theorem Metadata.Entry.failsOnly_ofDict (data : Value) :
    FailsOnly Value.IsShapeFault (Metadata.Entry.ofDict data) :=
  .bind (Value.failsOnly_require "key" data) fun _ _ => .bind (Value.failsOnly_script _) fun _ _ =>
    .bind (Value.failsOnly_require "value" data) fun _ _ =>
      .bind (Value.failsOnly_script _) fun _ _ => .ok _

namespace Response

/-! ## The parts of a record -/

theorem failsOnly_require (data : Value) (key : String) : FailsOnly IsRefusal (require data key) :=
  failsOnly_ofFault (Value.failsOnly_require key data)

theorem failsOnly_optional (data : Value) (key : String) : FailsOnly IsRefusal (optional data key) :=
  failsOnly_ofFault (Value.failsOnly_optional key data)

theorem failsOnly_inWord (n : Int) : FailsOnly IsRefusal (inWord n) := by
  unfold inWord
  split
  · exact .ok _
  · exact .bind (failsOnly_ofFault (Value.failsOnly_integerText n)) fun _ _ => .error (.fault rfl)

theorem failsOnly_word (v : Value) : FailsOnly IsRefusal (word v) := by
  unfold word
  split
  · exact failsOnly_inWord _
  · split
    · exact failsOnly_inWord _
    · exact .error (.fault rfl)
  · exact .error (.fault rfl)
  · exact .error (.fault rfl)

theorem failsOnly_hashText (v : Value) : FailsOnly IsRefusal (hashText v) := by
  have hrefuse : FailsOnly IsRefusal (do
      let shown ← Result.ofFault v.detailed
      .error (.fault (.refused (.notHash shown))) : Result Script) :=
    .bind (failsOnly_ofFault (Value.failsOnly_shown true v)) fun _ _ => .error (.fault rfl)
  unfold hashText
  simp only
  split
  · split
    · exact .ok _
    · exact hrefuse
  · exact hrefuse

theorem failsOnly_absentOr {read : Value → Result α} (h : ∀ v, FailsOnly IsRefusal (read v))
    (v : Value) : FailsOnly IsRefusal (absentOr read v) := by
  unfold absentOr
  split
  · exact .ok _
  · exact .bind (h v) fun _ _ => .ok _

theorem failsOnly_optionalWord (data : Value) (key : String) :
    FailsOnly IsRefusal (optionalWord data key) :=
  .bind (failsOnly_optional data key) fun v _ => failsOnly_absentOr failsOnly_word v

theorem failsOnly_optionalHash (data : Value) (key : String) :
    FailsOnly IsRefusal (optionalHash data key) :=
  .bind (failsOnly_optional data key) fun v _ => failsOnly_absentOr failsOnly_hashText v

theorem failsOnly_optionalAddress (data : Value) (key : String) :
    FailsOnly IsRefusal (optionalAddress data key) :=
  .bind (failsOnly_optional data key) fun v _ => failsOnly_absentOr Address.failsOnly_decode v

theorem failsOnly_amount (v : Value) : FailsOnly IsRefusal (amount v) := by
  unfold amount
  split
  · exact TokenAmount.failsOnly_ofText _
  · exact failsOnly_fail _
  · unfold TokenAmount.ofValue
    split
    · exact TokenAmount.failsOnly_ofInt _
    · exact failsOnly_fail _

theorem failsOnly_successFlag (v : Value) : FailsOnly IsRefusal (successFlag v) := by
  unfold successFlag
  split
  · exact .ok _
  · exact .error (.fault rfl)

theorem failsOnly_fee (v : Value) : FailsOnly IsRefusal (fee v) := by
  unfold fee
  split
  · exact .ok _
  · split
    · exact .ok _
    · exact .error (.fault rfl)
  · exact .error (.fault rfl)
  · exact .error (.fault rfl)

theorem failsOnly_displayed (v : Value) : FailsOnly IsRefusal (displayed v) :=
  failsOnly_ofFault (Value.failsOnly_script v)

theorem failsOnly_displayedOrEmpty (v : Value) : FailsOnly IsRefusal (displayedOrEmpty v) := by
  unfold displayedOrEmpty
  split
  · exact failsOnly_displayed v
  · exact .ok _

theorem failsOnly_elements (v : Value) : FailsOnly Value.IsShapeFault (elements v) := by
  unfold elements
  split
  · exact .ok _
  · exact .ok _
  · exact .ok _
  · exact .ok _
  · exact .ok _
  · exact .ok _
  · exact .ok _
  · exact .error rfl

theorem failsOnly_elementsOrNone (v : Value) : FailsOnly Value.IsShapeFault (elementsOrNone v) := by
  unfold elementsOrNone
  split
  · exact failsOnly_elements v
  · exact .ok _

theorem failsOnly_readAll {read : Value → Result α} (h : ∀ v, FailsOnly IsRefusal (read v))
    (items : List Value) : FailsOnly IsRefusal (readAll read items) := by
  induction items with
  | nil => exact .ok _
  | cons v rest ih => exact .bind (h v) fun _ _ => .bind ih fun _ _ => .ok _

theorem failsOnly_listAt {read : Value → Result α} (h : ∀ v, FailsOnly IsRefusal (read v))
    (data : Value) (key : String) : FailsOnly IsRefusal (listAt read data key) := by
  unfold listAt
  split
  · split
    · exact .ok _
    · exact .bind (failsOnly_ofFault (failsOnly_elements _)) fun items _ => failsOnly_readAll h items
  · exact .error (.fault rfl)

theorem failsOnly_entryOf (v : Value) : FailsOnly Value.IsShapeFault (entryOf v) := by
  refine .bind (failsOnly_elements v) fun parts _ => ?_
  split
  · split
    · exact .ok _
    · exact .error rfl
  · exact .error rfl

theorem failsOnly_collectEntries (items : List Value) (done : List (Value × Value)) :
    FailsOnly Value.IsShapeFault (collectEntries done items) := by
  induction items generalizing done with
  | nil => exact .ok _
  | cons v rest ih => exact .bind (failsOnly_entryOf v) fun e _ => ih _

theorem failsOnly_dictionary (v : Value) : FailsOnly Value.IsShapeFault (dictionary v) := by
  unfold dictionary
  split
  · exact .ok _
  · split
    · exact .ok _
    · exact .bind (failsOnly_elements _) fun items _ => failsOnly_collectEntries items []

/-! ## Records -/

/-- The reader of a record has one error for every refusal. -/
theorem failsOnly_shaped (typeName : String) {r : Result α} (h : FailsOnly IsRefusal r) :
    FailsOnly IsWrongShape (shaped typeName r) := by
  cases r with
  | ok a => exact .ok a
  | error f =>
    cases h f rfl with
    | encoding cause => exact .error ⟨_, _, _, rfl⟩
    | shape inner why underlying => exact .error ⟨inner, why, underlying, rfl⟩
    | @fault g hg =>
      have hshape : g.isShape = true := hg
      rw [shaped, if_pos hshape]
      exact .error ⟨_, _, _, rfl⟩

/-- Shaping keeps what was read. -/
theorem shaped_eq_ok {typeName : String} {r : Result α} {a : α} :
    shaped typeName r = .ok a ↔ r = .ok a := by
  cases r with
  | ok b => rw [shaped_ok]
  | error f =>
    refine iff_of_false ?_ error_ne_ok
    cases f with
    | client e =>
      rw [shaped]
      split <;> exact error_ne_ok
    | fault g =>
      rw [shaped]
      split <;> exact error_ne_ok

theorem eq_dict_of_require {data v : Value} {key : String} (h : require data key = .ok v) :
    ∃ entries, data = .dict entries := Value.eq_dict_of_require (ofFault_eq_ok.mp h)

theorem eq_dict_of_optional {data v : Value} {key : String} (h : optional data key = .ok v) :
    ∃ entries, data = .dict entries := Value.eq_dict_of_optional (ofFault_eq_ok.mp h)

theorem failsOnly_singleWord (typeName key : String) (data : Value) :
    FailsOnly IsWrongShape (singleWord typeName key data) :=
  failsOnly_shaped typeName (.bind (failsOnly_require data key) fun v _ => failsOnly_word v)

end Response

open Response

theorem failsOnly_submittedHash (data : Value) : FailsOnly IsWrongShape (submittedHash data) := by
  refine failsOnly_shaped _ ?_
  split
  · exact failsOnly_hashText _
  · exact failsOnly_hashText _
  · exact .bind (failsOnly_require _ _) fun v _ => failsOnly_hashText v

theorem Transaction.failsOnly_ofValue (data : Value) : FailsOnly IsWrongShape (ofValue data) := by
  refine failsOnly_shaped _ ?_
  refine .bind (failsOnly_require _ _) fun _ _ => .bind (failsOnly_hashText _) fun _ _ => ?_
  refine .bind (failsOnly_require _ _) fun _ _ => .bind (failsOnly_word _) fun _ _ => ?_
  refine .bind (failsOnly_require _ _) fun _ _ => .bind (Address.failsOnly_decode _) fun _ _ => ?_
  refine .bind (failsOnly_require _ _) fun _ _ => .bind (failsOnly_word _) fun _ _ => ?_
  refine .bind (failsOnly_optionalWord _ _) fun _ _ => .bind (failsOnly_optionalWord _ _) fun _ _ => ?_
  refine .bind (failsOnly_require _ _) fun _ _ => ?_
  refine .bind (failsOnly_ofFault (Signature.failsOnly_ofDict _)) fun _ _ => ?_
  refine .bind (failsOnly_optional _ _) fun _ _ => .bind (failsOnly_optional _ _) fun _ _ => ?_
  refine .bind (failsOnly_ofFault (failsOnly_dictionary _)) fun _ _ => ?_
  refine .bind (failsOnly_optionalHash _ _) fun _ _ => .bind (failsOnly_optionalWord _ _) fun _ _ => ?_
  exact .bind (failsOnly_optionalWord _ _) fun _ _ => .ok _

theorem TransactionReceipt.failsOnly_ofValue (data : Value) :
    FailsOnly IsWrongShape (ofValue data) := by
  refine failsOnly_shaped _ ?_
  refine .bind (failsOnly_require _ _) fun _ _ => .bind (failsOnly_successFlag _) fun _ _ => ?_
  refine .bind (failsOnly_require _ _) fun _ _ => .bind (failsOnly_fee _) fun _ _ => ?_
  refine .bind (failsOnly_require _ _) fun _ _ => .bind (failsOnly_hashText _) fun _ _ => ?_
  refine .bind (failsOnly_require _ _) fun _ _ => .bind (Address.failsOnly_decode _) fun _ _ => ?_
  refine .bind (failsOnly_optionalAddress _ _) fun _ _ => ?_
  refine .bind (failsOnly_optionalAddress _ _) fun _ _ => ?_
  refine .bind (failsOnly_optionalWord _ _) fun _ _ => .bind (failsOnly_optionalHash _ _) fun _ _ => ?_
  exact .bind (failsOnly_optionalWord _ _) fun _ _ => .ok _

theorem AssociatedTokenAccount.failsOnly_ofValue (data : Value) :
    FailsOnly IsWrongShape (ofValue data) := by
  refine failsOnly_shaped _ ?_
  refine .bind (failsOnly_require _ _) fun _ _ => .bind (Address.failsOnly_decode _) fun _ _ => ?_
  refine .bind (failsOnly_require _ _) fun _ _ => .bind (failsOnly_amount _) fun _ _ => ?_
  exact .bind (failsOnly_require _ _) fun _ _ => .bind (failsOnly_word _) fun _ _ => .ok _

theorem LatestState.failsOnly_ofValue (data : Value) : FailsOnly IsWrongShape (ofValue data) := by
  refine failsOnly_shaped _ ?_
  refine .bind (failsOnly_require _ _) fun _ _ => .bind (failsOnly_word _) fun _ _ => ?_
  exact .bind (failsOnly_require _ _) fun _ _ => .bind (failsOnly_word _) fun _ _ => .ok _

theorem CheckpointEntry.failsOnly_ofValue (v : Value) : FailsOnly IsRefusal (ofValue v) := by
  unfold ofValue
  split
  · exact .bind (failsOnly_hashText _) fun _ _ => .ok _
  · exact .bind (failsOnly_hashText _) fun _ _ => .ok _
  · refine .bind ?_ fun _ _ => .ok _
    exact (Transaction.failsOnly_ofValue v).mono fun _ => IsWrongShape.isRefusal

theorem Checkpoint.failsOnly_ofValue (data : Value) : FailsOnly IsWrongShape (ofValue data) := by
  refine failsOnly_shaped _ ?_
  refine .bind (failsOnly_require _ _) fun _ _ => .bind (failsOnly_hashText _) fun _ _ => ?_
  refine .bind (failsOnly_require _ _) fun _ _ => .bind (failsOnly_hashText _) fun _ _ => ?_
  refine .bind (failsOnly_require _ _) fun _ _ => .bind (failsOnly_hashText _) fun _ _ => ?_
  refine .bind (failsOnly_require _ _) fun _ _ => .bind (failsOnly_hashText _) fun _ _ => ?_
  refine .bind (failsOnly_require _ _) fun _ _ => .bind (failsOnly_hashText _) fun _ _ => ?_
  refine .bind (failsOnly_require _ _) fun _ _ => .bind (failsOnly_word _) fun _ _ => ?_
  refine .bind (failsOnly_require _ _) fun _ _ => .bind (failsOnly_word _) fun _ _ => ?_
  refine .bind (failsOnly_optional _ _) fun _ _ => .bind (failsOnly_displayedOrEmpty _) fun _ _ => ?_
  refine .bind (failsOnly_optional _ _) fun _ _ => ?_
  refine .bind (failsOnly_ofFault (failsOnly_elementsOrNone _)) fun _ _ => ?_
  refine .bind (failsOnly_readAll CheckpointEntry.failsOnly_ofValue _) fun _ _ => ?_
  exact .bind (failsOnly_optionalWord _ _) fun _ _ => .ok _

theorem EpochInfo.failsOnly_ofValue (data : Value) : FailsOnly IsWrongShape (ofValue data) := by
  refine failsOnly_shaped _ ?_
  refine .bind (failsOnly_require _ _) fun _ _ => .bind (failsOnly_word _) fun _ _ => ?_
  refine .bind (failsOnly_require _ _) fun _ _ => .bind (failsOnly_hashText _) fun _ _ => ?_
  exact .bind (failsOnly_require _ _) fun _ _ => .ok _

theorem failsOnly_estimatedFee (data : Value) : FailsOnly IsWrongShape (estimatedFee data) :=
  failsOnly_shaped _ (.bind (failsOnly_require _ _) fun _ _ => failsOnly_amount _)

theorem TokenMetadata.failsOnly_ofValue (v : Value) : FailsOnly IsRefusal (ofValue v) := by
  refine .bind (failsOnly_require _ _) fun _ _ => .bind (failsOnly_displayed _) fun _ _ => ?_
  refine .bind (failsOnly_require _ _) fun _ _ => .bind (failsOnly_displayed _) fun _ _ => ?_
  refine .bind (failsOnly_listAt (fun e => ?_) _ _) fun _ _ => .ok _
  exact failsOnly_ofFault (Metadata.Entry.failsOnly_ofDict e)

theorem MintInfo.failsOnly_ofValue (data : Value) : FailsOnly IsWrongShape (ofValue data) := by
  refine failsOnly_shaped _ ?_
  refine .bind (failsOnly_optional _ _) fun about _ => ?_
  refine .bind (failsOnly_require _ _) fun _ _ => .bind (failsOnly_displayed _) fun _ _ => ?_
  refine .bind (failsOnly_require _ _) fun _ _ => .bind (Address.failsOnly_decode _) fun _ _ => ?_
  refine .bind (failsOnly_require _ _) fun _ _ => .bind (Address.failsOnly_decode _) fun _ _ => ?_
  refine .bind (failsOnly_require _ _) fun _ _ => .bind (failsOnly_amount _) fun _ _ => ?_
  refine .bind (failsOnly_require _ _) fun _ _ => .bind (failsOnly_word _) fun _ _ => ?_
  refine .bind (failsOnly_require _ _) fun _ _ => .bind (failsOnly_require _ _) fun _ _ => ?_
  refine .bind (failsOnly_listAt Address.failsOnly_decode _ _) fun _ _ => ?_
  refine .bind (failsOnly_listAt Address.failsOnly_decode _ _) fun _ _ => ?_
  refine .bind (failsOnly_listAt Address.failsOnly_decode _ _) fun _ _ => ?_
  refine .bind (failsOnly_listAt Address.failsOnly_decode _ _) fun _ _ => ?_
  refine .bind (failsOnly_listAt Address.failsOnly_decode _ _) fun _ _ => ?_
  simp only
  split
  · exact .bind (.map _ (TokenMetadata.failsOnly_ofValue about)) fun _ _ => .ok _
  · exact .ok _

theorem Response.failsOnly_decode (type : ResponseType) (data : Value) :
    FailsOnly IsWrongShape (decode type data) := by
  cases type with
  | transactionHash => exact .map _ (failsOnly_submittedHash data)
  | transaction => exact .map _ (Transaction.failsOnly_ofValue data)
  | transactionReceipt => exact .map _ (TransactionReceipt.failsOnly_ofValue data)
  | accountNonce => exact .map _ (failsOnly_singleWord _ _ data)
  | accountBBNonce => exact .map _ (failsOnly_singleWord _ _ data)
  | associatedTokenAccount => exact .map _ (AssociatedTokenAccount.failsOnly_ofValue data)
  | latestState => exact .map _ (LatestState.failsOnly_ofValue data)
  | chainId => exact .map _ (failsOnly_singleWord _ _ data)
  | checkpointNumber => exact .map _ (failsOnly_singleWord _ _ data)
  | checkpoint => exact .map _ (Checkpoint.failsOnly_ofValue data)
  | epochInfo => exact .map _ (EpochInfo.failsOnly_ofValue data)
  | feeEstimate => exact .map _ (failsOnly_estimatedFee data)
  | mintInfo => exact .map _ (MintInfo.failsOnly_ofValue data)

/-! ## Decoders -/

namespace Decoder

/-- The decoder of a record of the ledger or of a part of one. -/
def IsRecord : Decoder → Prop
  | .response _ | .signature | .metadataPair => True
  | .integer | .length | .truth => False

/-- What a decoder reports as a wrong shape, or has reported already. -/
def IsReported (f : Failure) : Prop := f.IsWrongShape ∨ ∃ g, f = .fault g ∧ Value.IsShapeFault g

theorem failsOnly_readRaw {d : Decoder} (h : d.IsRecord) (data : Value) :
    FailsOnly IsReported (d.readRaw data) := by
  have hfault {β : Type} {x : Except Fault β} (hx : FailsOnly Value.IsShapeFault x) :
      FailsOnly IsReported (Result.ofFault x) := by
    cases x with
    | ok b => exact .ok b
    | error g => exact .error (.inr ⟨g, rfl, hx g rfl⟩)
  cases d with
  | response type => exact .map _ ((Response.failsOnly_decode type data).mono fun _ => .inl)
  | signature => exact .map _ (hfault (Signature.failsOnly_ofDict data))
  | metadataPair => exact .map _ (hfault (Metadata.Entry.failsOnly_ofDict data))
  | _ => exact h.elim

theorem failsOnly_read {d : Decoder} (h : d.IsRecord) (data : Value) :
    FailsOnly IsWrongShape (d.read data) := by
  have hraw := failsOnly_readRaw h data
  unfold read
  cases hr : d.readRaw data with
  | ok a => exact .ok a
  | error f =>
    rcases hraw f hr with ⟨typeName, why, underlying, rfl⟩ | ⟨g, rfl, hg⟩
    · exact .error ⟨typeName, why, underlying, rfl⟩
    · have hshape : g.isShape = true := hg
      rw [reportShape, if_pos hshape]
      exact .error ⟨_, _, _, rfl⟩

/-- Reporting keeps what was read. -/
theorem read_eq_ok_iff {d : Decoder} {data : Value} {a : Answer} :
    d.read data = .ok a ↔ d.readRaw data = .ok a := by
  unfold read
  cases d.readRaw data with
  | ok b => exact Iff.rfl
  | error f =>
    refine iff_of_false ?_ error_ne_ok
    cases f with
    | client e => exact error_ne_ok
    | fault g =>
      rw [reportShape]
      split
      · exact error_ne_ok
      · exact error_ne_ok

end Decoder

end

end LedgerClient
