import LedgerClient.Client.Queries
import LedgerClient.Client.Submission
import LedgerClient.Value.Binding

/-!
# Calls by name

Everything a client can do has a name and named parameters. The arguments are bound before anything
else happens. What belongs to a client but cannot be called is told from what is unknown.
-/

namespace LedgerClient

namespace Client

open Parameter (required optional)

/-- Something a client can do, on the values of its parameters. -/
structure Operation where
  params : List Parameter
  run : List Value → Action Reply Answer

def response (a : Action Reply Response) : Action Reply Answer := do
  let r ← a
  return .response r

def returning (a : Action Reply Value) : Action Reply Answer := do
  let v ← a
  return .value v

def misbound : Action Reply Answer := throw (.fault .wrongType)

def operation0 (run : Action Reply Answer) : Operation :=
  ⟨[], fun values => match values with
    | [] => run
    | _ => misbound⟩

def operation1 (p : Parameter) (run : Value → Action Reply Answer) : Operation :=
  ⟨[p], fun values => match values with
    | [a] => run a
    | _ => misbound⟩

def operation2 (p q : Parameter) (run : Value → Value → Action Reply Answer) : Operation :=
  ⟨[p, q], fun values => match values with
    | [a, b] => run a b
    | _ => misbound⟩

def operation3 (p q r : Parameter) (run : Value → Value → Value → Action Reply Answer) : Operation :=
  ⟨[p, q, r], fun values => match values with
    | [a, b, c] => run a b c
    | _ => misbound⟩

def accountOperation? (c : Client) (name : String) : Option Operation :=
  match name with
  | "accounts.get_nonce" => some (operation1 (required "address") fun a => response (c.nonce a))
  | "accounts.get_bbnonce" => some (operation1 (required "address") fun a => response (c.bridgeNonce a))
  | "accounts.get_token_account" =>
    some (operation2 (required "address") (required "token") fun a t => response (c.tokenAccount a t))
  | "accounts.token_account_address" =>
    some (operation2 (required "address") (required "token") fun a t => returning do
      return .address (← Action.ofResult (Address.deriveTokenAccount a t)))
  | "tokens.get_token_metadata" =>
    some (operation1 (required "token") fun t => response (c.tokenMetadata t))
  | _ => none

def stateOperation? (c : Client) (name : String) : Option Operation :=
  let full : Parameter := ⟨"full", some (.bool false)⟩
  match name with
  | "states.get_latest_epoch_checkpoint" => some (operation0 (response c.latestState))
  | "states.get_chain_id" => some (operation0 (response c.serviceChainId))
  | "states.get_checkpoint_number" => some (operation0 (response c.checkpointNumber))
  | "states.get_checkpoint_by_number" =>
    some (operation2 (required "number") full fun n f => response (c.checkpointByNumber n f))
  | "states.get_checkpoint_by_hash" =>
    some (operation2 (required "checkpoint_hash") full fun h f => response (c.checkpointByHash h f))
  | "states.get_current_epoch" => some (operation0 (response c.currentEpoch))
  | "states.get_epoch_by_id" =>
    some (operation1 (required "epoch_id") fun i => response (c.epochById i))
  | _ => none

def statusAnswer (a : Action Reply TransactionStatus) : Action Reply Answer :=
  returning do return .choice (.transactionStatus (← a))

def transactionOperation? (c : Client) (name : String) : Option Operation :=
  match name with
  | "transactions.get_transaction_by_hash" =>
    some (operation1 (required "tx_hash") fun h => response do return .transaction (← c.transaction h))
  | "transactions.get_transaction_receipt" =>
    some (operation1 (required "tx_hash") fun h => response do
      return .transactionReceipt (← c.receipt h))
  | "transactions.estimate_fee" =>
    some (operation3 (required "sender") (required "value") (required "token") fun s v t =>
      response (c.feeEstimate s v t))
  | "transactions.get_status" =>
    some (operation1 (required "tx_hash") fun h => statusAnswer (c.status h))
  | "transactions.wait_for_confirmation" =>
    some (operation3 (required "tx_hash") (optional "max_attempts") (optional "interval")
      fun h a i => statusAnswer (c.awaitConfirmation h a i))
  | _ => none

def requestOperation? (c : Client) (name : String) : Option Operation :=
  match name with
  | "dispatcher.send" =>
    some ⟨[required "method", required "path", optional "body", optional "decoder", optional "params"],
      fun values => match values with
        | [method, path, body, decoder, params] => c.send method path body decoder params
        | _ => misbound⟩
  | "dispatcher.get" =>
    some (operation3 (required "path") (optional "params") (optional "decoder")
      fun path params decoder => c.send (.text "GET") path .null decoder params)
  | "dispatcher.post" =>
    some (operation3 (required "path") (required "body") (optional "decoder")
      fun path body decoder => c.send (.text "POST") path body decoder .null)
  | "dispatcher.build_url" =>
    some (operation2 (required "path") (optional "params") fun path params => returning do
      return .text (← Action.ofFault (c.config.requestUrl path params)))
  | "sign_request" =>
    some (operation2 (required "payload") (required "private_key") fun p k =>
      returning (c.signRequest p k))
  | "submit_signed" =>
    some (operation3 (required "path") (required "payload") (required "body") fun path p b =>
      c.submitSigned path p b)
  | "aclose" => some (operation0 (returning do
      c.close
      return .null))
  | _ => none

/-! ## Signing -/

def signerLogger : String := "onemoney_client.infra.signer"

/-- A verdict as an answer; the error behind a refusal is logged. -/
def verdictAnswer (r : Result Signer.Verdict) : Action Reply Answer := returning do
  let v ← Action.ofResult r
  match v.why with
  | some e => Action.log (.plain signerLogger 10 ("Signature verification failed: " ++ e.text))
  | none => pure ()
  return .bool v.holds

def signed (r : Result Signature) : Action Reply Answer := returning do
  let s ← Action.ofResult r
  return s.toValue

def located (r : Result Address) : Action Reply Answer := returning do
  return .address (← Action.ofResult r)

def inBytes (r : Result Bytes) : Action Reply Answer := returning do
  return .bytes (← Action.ofResult r)

def signerOperation? (c : Client) (name : String) : Option Operation :=
  let message := required "message"
  let hash := required "message_hash"
  let key := required "private_key"
  let signature := required "signature"
  let expected := required "expected_address"
  match name with
  | "signer.sign" => some (operation2 message key fun m k => signed (Signer.sign c.backend m k))
  | "signer.sign_hash" => some (operation2 hash key fun h k => signed (Signer.signHash c.backend h k))
  | "signer.sign_payload" =>
    some (operation2 (required "payload") key fun p k => signed do
      Signer.signPayload c.backend (← Payload.ofValue p) k)
  | "signer.recover_address" =>
    some (operation2 message signature fun m s => located (Signer.recover c.backend m s))
  | "signer.recover_address_from_hash" =>
    some (operation2 hash signature fun h s => located (Signer.recoverHash c.backend h s))
  | "signer.verify" =>
    some (operation3 message signature expected fun m s a => verdictAnswer (Signer.verify c.backend m s a))
  | "signer.verify_hash" =>
    some (operation3 hash signature expected fun h s a =>
      verdictAnswer (Signer.verifyHash c.backend h s a))
  | "signer.public_key" => some (operation1 key fun k => inBytes (Signer.publicKey c.backend k))
  | "signer.derive_address" => some (operation1 key fun k => located (Signer.deriveAddress c.backend k))
  | "encoder.encode" =>
    some (operation1 (required "payload") fun p => inBytes do (← Payload.ofValue p).encode)
  | "encoder.signature_hash" =>
    some (operation1 (required "payload") fun p => inBytes do (← Payload.ofValue p).signatureHash)
  | "config.url_for" =>
    some (operation1 (required "path") fun p => returning do
      return .text (← Action.ofFault (c.config.requestUrl p .null)))
  | _ => none

/-! ## All operations -/

def submissionOperation? (c : Client) (name : String) : Option Operation :=
  (SubmissionMethod.ofName? name).map fun m =>
    operation2 (required "payload") (required "private_key") fun p k => c.submit m p k

def operation? (c : Client) (name : String) : Option Operation :=
  (c.submissionOperation? name).or <| (c.requestOperation? name).or <|
    (c.transactionOperation? name).or <| (c.stateOperation? name).or <|
      (c.accountOperation? name).or (c.signerOperation? name)

/-- Parts of a client and settings, which are no operations. -/
def partNames : List String :=
  ["accounts", "chain_id", "config", "config.base_url", "config.base_url_override", "config.chain_id",
    "config.network", "config.network_config", "config.poll", "config.timeout_seconds",
    "config.user_agent", "dispatcher", "dispatcher.config", "dispatcher.transport", "encoder",
    "signer", "states", "tokens", "transactions"]

/-- Calls an operation by its name. -/
def call (c : Client) (name : String) (args : List Value) (named : List (String × Value)) :
    Action Reply Answer :=
  match c.operation? name with
  | none => throw (.fault (if partNames.contains name then .wrongType else .noAttribute))
  | some op => do
    let values ← Action.ofFault (Parameter.bind op.params args named)
    op.run values

end Client

end LedgerClient
