import LedgerClient.Json.Reader
import LedgerClient.Response.Parts
import LedgerClient.Text.Utf8

/-!
# Decoding responses

Every record is read from a JSON object key by key in a fixed order; the first key that does not
fit decides the error, which names the record.
-/

namespace LedgerClient

open Response (shaped require optional word singleWord hashText optionalWord optionalHash
  optionalAddress amount fee successFlag displayed displayedOrEmpty elementsOrNone readAll listAt
  dictionary)

/-- A submission is answered by a hash, bare or in an object. -/
def submittedHash (data : Value) : Result Script :=
  shaped "TransactionHash" do
    match data with
    | .text _ | .torn _ => hashText data
    | _ => hashText (← require data "hash")

def Transaction.ofValue (data : Value) : Result Transaction :=
  shaped "Transaction" do
    let hash ← hashText (← require data "hash")
    let chainId ← word (← require data "chain_id")
    let sender ← Address.decode (← require data "from")
    let nonce ← word (← require data "nonce")
    let recentEpoch ← optionalWord data "recent_epoch"
    let recentCheckpoint ← optionalWord data "recent_checkpoint"
    let signature ← Result.ofFault (Signature.ofDict (← require data "signature"))
    let kind ← optional data "transaction_type"
    let entries ← Result.ofFault (dictionary (← optional data "data"))
    let checkpointHash ← optionalHash data "checkpoint_hash"
    let checkpointNumber ← optionalWord data "checkpoint_number"
    let transactionIndex ← optionalWord data "transaction_index"
    return ⟨hash, chainId, sender, nonce, recentEpoch, recentCheckpoint, signature, kind, entries,
      checkpointHash, checkpointNumber, transactionIndex⟩

def TransactionReceipt.ofValue (data : Value) : Result TransactionReceipt :=
  shaped "TransactionReceipt" do
    let success ← successFlag (← require data "success")
    let feeUsed ← fee (← require data "fee_used")
    let transactionHash ← hashText (← require data "transaction_hash")
    let sender ← Address.decode (← require data "from")
    let recipient ← optionalAddress data "to"
    let tokenAddress ← optionalAddress data "token_address"
    let transactionIndex ← optionalWord data "transaction_index"
    let checkpointHash ← optionalHash data "checkpoint_hash"
    let checkpointNumber ← optionalWord data "checkpoint_number"
    return ⟨success, transactionHash, feeUsed, sender, recipient, tokenAddress, transactionIndex,
      checkpointHash, checkpointNumber⟩

def AssociatedTokenAccount.ofValue (data : Value) : Result AssociatedTokenAccount :=
  shaped "AssociatedTokenAccount" do
    let address ← Address.decode (← require data "token_account_address")
    let balance ← amount (← require data "balance")
    let nonce ← word (← require data "nonce")
    return ⟨address, balance, nonce⟩

def LatestState.ofValue (data : Value) : Result LatestState :=
  shaped "LatestState" do
    let epoch ← word (← require data "epoch")
    let checkpoint ← word (← require data "checkpoint")
    return ⟨epoch, checkpoint⟩

def CheckpointEntry.ofValue (v : Value) : Result CheckpointEntry :=
  match v with
  | .text _ | .torn _ => do
    let h ← hashText v
    return .hash h
  | _ => do
    let t ← Transaction.ofValue v
    return .full t

def Checkpoint.ofValue (data : Value) : Result Checkpoint :=
  shaped "Checkpoint" do
    let hash ← hashText (← require data "hash")
    let parentHash ← hashText (← require data "parent_hash")
    let stateRoot ← hashText (← require data "state_root")
    let transactionsRoot ← hashText (← require data "transactions_root")
    let receiptsRoot ← hashText (← require data "receipts_root")
    let number ← word (← require data "number")
    let timestamp ← word (← require data "timestamp")
    let extraData ← displayedOrEmpty (← optional data "extra_data")
    let items ← Result.ofFault (elementsOrNone (← optional data "transactions"))
    let transactions ← readAll CheckpointEntry.ofValue items
    let size ← optionalWord data "size"
    return ⟨hash, parentHash, stateRoot, transactionsRoot, receiptsRoot, number, timestamp,
      extraData, transactions, size⟩

def EpochInfo.ofValue (data : Value) : Result EpochInfo :=
  shaped "EpochInfo" do
    let epochId ← word (← require data "epoch_id")
    let certificateHash ← hashText (← require data "certificate_hash")
    let certificate ← require data "certificate"
    return ⟨epochId, certificateHash, certificate⟩

def estimatedFee (data : Value) : Result TokenAmount :=
  shaped "FeeEstimate" do
    amount (← require data "fee")

def Metadata.Entry.ofValue (data : Value) : Result Metadata.Entry := Result.ofFault (Metadata.Entry.ofDict data)

def TokenMetadata.ofValue (v : Value) : Result TokenMetadata := do
  let name ← displayed (← require v "name")
  let uri ← displayed (← require v "uri")
  let additional ← listAt Metadata.Entry.ofValue v "additional_metadata"
  return ⟨name, uri, additional⟩

def MintInfo.ofValue (data : Value) : Result MintInfo :=
  shaped "MintInfo" do
    let metadataValue ← optional data "meta"
    let symbol ← displayed (← require data "symbol")
    let masterAuthority ← Address.decode (← require data "master_authority")
    let masterMintBurnAuthority ← Address.decode (← require data "master_mint_burn_authority")
    let supply ← amount (← require data "supply")
    let decimals ← word (← require data "decimals")
    let isPaused ← require data "is_paused"
    let isPrivate ← require data "is_private"
    let pauseAuthorities ← listAt Address.decode data "pause_authorities"
    let listAuthorities ← listAt Address.decode data "list_authorities"
    let blackList ← listAt Address.decode data "black_list"
    let whiteList ← listAt Address.decode data "white_list"
    let metadataUpdateAuthorities ← listAt Address.decode data "metadata_update_authorities"
    let metadata ← if metadataValue.truthy then (TokenMetadata.ofValue metadataValue).map some else pure none
    return ⟨symbol, masterAuthority, masterMintBurnAuthority, supply, decimals, isPaused.truthy,
      isPrivate.truthy, pauseAuthorities, listAuthorities, blackList, whiteList,
      metadataUpdateAuthorities, metadata⟩

namespace Response

/-- Decodes a record of the given type. -/
def decode (type : ResponseType) (data : Value) : Result Response :=
  match type with
  | .transactionHash => (submittedHash data).map .transactionHash
  | .transaction => (Transaction.ofValue data).map .transaction
  | .transactionReceipt => (TransactionReceipt.ofValue data).map .transactionReceipt
  | .accountNonce => (singleWord "AccountNonce" "nonce" data).map .accountNonce
  | .accountBBNonce => (singleWord "AccountBBNonce" "bbnonce" data).map .accountBBNonce
  | .associatedTokenAccount => (AssociatedTokenAccount.ofValue data).map .associatedTokenAccount
  | .latestState => (LatestState.ofValue data).map .latestState
  | .chainId => (singleWord "ChainId" "chain_id" data).map .chainId
  | .checkpointNumber => (singleWord "CheckpointNumber" "number" data).map .checkpointNumber
  | .checkpoint => (Checkpoint.ofValue data).map .checkpoint
  | .epochInfo => (EpochInfo.ofValue data).map .epochInfo
  | .feeEstimate => (estimatedFee data).map .feeEstimate
  | .mintInfo => (MintInfo.ofValue data).map .mintInfo

/-- The JSON value of a successful response. One that is nested too deep is no error of the client. -/
def parseBody (body : Bytes) (url : String) : Result Value :=
  let text := Text.ofUtf8 body
  match Json.read text with
  | .ok v => .ok v
  | .error .malformed => .fail (.notJson url text (some "JSONDecodeError"))
  | .error .tooDeep => .error (.fault .tooDeep)

end Response

end LedgerClient
