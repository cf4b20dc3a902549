import LedgerClient.Metadata.Basic
import LedgerClient.Signature.Basic

/-!
# Records of the ledger

What the service reports: transactions, receipts, accounts, checkpoints, epochs, fees and tokens.
Numbers are plain naturals here; the decoder keeps them within 64 bits.
-/

namespace LedgerClient

structure Transaction where
  hash : Script
  chainId : Nat
  sender : Address
  nonce : Nat
  recentEpoch : Option Nat
  recentCheckpoint : Option Nat
  signature : Signature
  kind : Value
  data : List (Value × Value)
  checkpointHash : Option Script
  checkpointNumber : Option Nat
  transactionIndex : Option Nat

/-- A transaction is included once it stands in a numbered checkpoint. -/
def Transaction.isIncluded (t : Transaction) : Bool := t.checkpointNumber.isSome

structure TransactionReceipt where
  success : Bool
  transactionHash : Script
  feeUsed : Int
  sender : Address
  recipient : Option Address
  tokenAddress : Option Address
  transactionIndex : Option Nat
  checkpointHash : Option Script
  checkpointNumber : Option Nat

def TransactionReceipt.status (r : TransactionReceipt) : TransactionStatus :=
  if r.success then .confirmed else .failed

theorem TransactionReceipt.status_isTerminal (r : TransactionReceipt) :
    r.status.isTerminal = true := by
  cases h : r.success <;> simp [TransactionReceipt.status, h, TransactionStatus.isTerminal]

structure AssociatedTokenAccount where
  address : Address
  balance : TokenAmount
  nonce : Nat

structure LatestState where
  epoch : Nat
  checkpoint : Nat

/-- A transaction of a checkpoint is reported by its hash or in full. -/
inductive CheckpointEntry where
  | hash (h : Script)
  | full (t : Transaction)

def CheckpointEntry.transactionHash : CheckpointEntry → Script
  | .hash h => h
  | .full t => t.hash

structure Checkpoint where
  hash : Script
  parentHash : Script
  stateRoot : Script
  transactionsRoot : Script
  receiptsRoot : Script
  number : Nat
  timestamp : Nat
  extraData : Script
  transactions : List CheckpointEntry
  size : Option Nat

def Checkpoint.transactionHashes (c : Checkpoint) : List Script :=
  c.transactions.map CheckpointEntry.transactionHash

/-- The certificate is kept as the service sends it. -/
structure EpochInfo where
  epochId : Nat
  certificateHash : Script
  certificate : Value

/-- A certificate in text form. -/
def EpochInfo.certificateHex (e : EpochInfo) : Option Script := e.certificate.text?

structure TokenMetadata where
  name : Script
  uri : Script
  additional : List Metadata.Entry

structure MintInfo where
  symbol : Script
  masterAuthority : Address
  masterMintBurnAuthority : Address
  supply : TokenAmount
  decimals : Nat
  isPaused : Bool
  isPrivate : Bool
  pauseAuthorities : List Address
  listAuthorities : List Address
  blackList : List Address
  whiteList : List Address
  metadataUpdateAuthorities : List Address
  metadata : Option TokenMetadata

/-- A decoded response. -/
inductive Response where
  | transactionHash (hash : Script)
  | transaction (t : Transaction)
  | transactionReceipt (r : TransactionReceipt)
  | accountNonce (nonce : Nat)
  | accountBBNonce (bbnonce : Nat)
  | associatedTokenAccount (a : AssociatedTokenAccount)
  | latestState (s : LatestState)
  | chainId (id : Nat)
  | checkpointNumber (number : Nat)
  | checkpoint (c : Checkpoint)
  | epochInfo (e : EpochInfo)
  | feeEstimate (fee : TokenAmount)
  | mintInfo (m : MintInfo)

end LedgerClient
