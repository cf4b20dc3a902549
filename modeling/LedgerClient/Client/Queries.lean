import LedgerClient.Client.Exchange
import LedgerClient.Confirmation

/-!
# Queries

What a client can ask the service: about accounts, the state of the chain, tokens and transactions.
A transaction's status follows from its record and, once it is in a checkpoint, from its receipt.
-/

namespace LedgerClient.Client

/-- A query for a record of a type. -/
def ask (c : Client) (path : String) (params : List (String × Value)) (type : ResponseType) :
    Action Reply Response := do
  let data ← c.query path params
  Action.ofResult (Response.decode type data)

def checksumOf (field : String) (v : Value) : Result Value := do
  let a ← Address.coerce field v
  return .text a.checksum

/-! ## Accounts -/

def nonce (c : Client) (address : Value) : Action Reply Response := do
  let a ← Action.ofResult (checksumOf "address" address)
  c.ask "/accounts/nonce" [("address", a)] .accountNonce

def bridgeNonce (c : Client) (address : Value) : Action Reply Response := do
  let a ← Action.ofResult (checksumOf "address" address)
  c.ask "/accounts/bbnonce" [("address", a)] .accountBBNonce

def tokenAccount (c : Client) (address token : Value) : Action Reply Response := do
  let a ← Action.ofResult (checksumOf "address" address)
  let t ← Action.ofResult (checksumOf "token" token)
  c.ask "/accounts/token_account" [("address", a), ("token", t)] .associatedTokenAccount

/-! ## States -/

def statesLogger : String := "onemoney_client.modules.states"

def latestState (c : Client) : Action Reply Response :=
  c.ask "/states/latest_epoch_checkpoint" [] .latestState

/-- The service's chain id; one that differs from the configured one is logged. -/
def serviceChainId (c : Client) : Action Reply Response := do
  let answer ← c.ask "/chains/chain_id" [] .chainId
  match answer with
  | .chainId id =>
    if id = c.chainId then return answer
    else
      Action.log (.plain statesLogger 30 ("Server chain_id " ++ toString id ++
        " differs from configured " ++ c.config.network.name ++ " chain_id " ++ toString c.chainId))
      return answer
  | _ => return answer

def checkpointNumber (c : Client) : Action Reply Response :=
  c.ask "/checkpoints/number" [] .checkpointNumber

def flag (v : Value) : Value := .text (if v.truthy then "true" else "false")

def checkpointByNumber (c : Client) (number full : Value) : Action Reply Response :=
  c.ask "/checkpoints/by_number" [("number", number), ("full", flag full)] .checkpoint

def checkpointByHash (c : Client) (hash full : Value) : Action Reply Response :=
  c.ask "/checkpoints/by_hash" [("hash", hash), ("full", flag full)] .checkpoint

def currentEpoch (c : Client) : Action Reply Response := c.ask "/governances/epoch" [] .epochInfo

def epochById (c : Client) (id : Value) : Action Reply Response :=
  c.ask "/governances/epoch/by_id" [("id", id)] .epochInfo

/-! ## Tokens -/

def tokenMetadata (c : Client) (token : Value) : Action Reply Response := do
  let t ← Action.ofResult (checksumOf "token" token)
  c.ask "/tokens/token_metadata" [("token", t)] .mintInfo

/-! ## Transactions -/

def transaction (c : Client) (hash : Value) : Action Reply Transaction := do
  let data ← c.query "/transactions/by_hash" [("hash", hash)]
  Action.ofResult (Transaction.ofValue data)

def receipt (c : Client) (hash : Value) : Action Reply TransactionReceipt := do
  let data ← c.query "/transactions/receipt/by_hash" [("hash", hash)]
  Action.ofResult (TransactionReceipt.ofValue data)

def feeEstimate (c : Client) (sender value token : Value) : Action Reply Response := do
  let s ← Action.ofResult (checksumOf "from" sender)
  let v ← Action.ofResult (TokenAmount.coerce value)
  let t ← Action.ofResult (checksumOf "token" token)
  c.ask "/transactions/estimate_fee" [("from", s), ("value", .text v.wire), ("token", t)] .feeEstimate

/-- Pending until the transaction is in a checkpoint; then its receipt decides. -/
def status (c : Client) (hash : Value) : Action Reply TransactionStatus := do
  let t ← c.transaction hash
  if t.isIncluded then
    let r ← c.receipt hash
    return r.status
  else return .pending

/-- A limit that is given, otherwise the configured one. -/
def givenOr (v : Value) (configured : Except Fault Value) : Except Fault Value :=
  if v.isNull then configured else .ok v

/-- Waits for a final status; absent limits are those of the configuration. -/
def awaitConfirmation (c : Client) (hash attempts interval : Value) :
    Action Reply TransactionStatus := do
  let limit ← Action.ofFault (givenOr attempts c.config.pollAttempts)
  let pause ← Action.ofFault (givenOr interval c.config.pollInterval)
  Confirmation.await c.status hash limit pause

end LedgerClient.Client
