import LedgerClient.Client.Exchange
import LedgerClient.Signer

/-!
# Submissions

A payload is checked and signed first; only then is it posted, with its signature beside its
fields, to the endpoint of the chosen method. Granting and revoking require the payload's action to
match.
-/

namespace LedgerClient

inductive SubmissionMethod where
  | sendPayment
  | mint
  | burn
  | updateAuthority
  | grantAuthority
  | revokeAuthority
  | pause
  | manageBlacklist
  | manageWhitelist
  | updateMetadata
  | bridgeAndMint
  | burnAndBridge
  deriving DecidableEq, Repr

namespace SubmissionMethod

def all : List SubmissionMethod :=
  [sendPayment, mint, burn, updateAuthority, grantAuthority, revokeAuthority, pause,
    manageBlacklist, manageWhitelist, updateMetadata, bridgeAndMint, burnAndBridge]

def name : SubmissionMethod → String
  | .sendPayment => "transactions.send_payment"
  | .mint => "tokens.mint"
  | .burn => "tokens.burn"
  | .updateAuthority => "tokens.update_authority"
  | .grantAuthority => "tokens.grant_authority"
  | .revokeAuthority => "tokens.revoke_authority"
  | .pause => "tokens.pause"
  | .manageBlacklist => "tokens.manage_blacklist"
  | .manageWhitelist => "tokens.manage_whitelist"
  | .updateMetadata => "tokens.update_metadata"
  | .bridgeAndMint => "tokens.bridge_and_mint"
  | .burnAndBridge => "tokens.burn_and_bridge"

def ofName? (s : String) : Option SubmissionMethod := all.find? (·.name = s)

theorem mem_all (m : SubmissionMethod) : m ∈ all := by cases m <;> decide

def grantPath : String := "/tokens/grant_authority"

def revokePath : String := "/tokens/revoke_authority"

/-- The action of a payload, when it has one. -/
def actionOf (payload : Value) : Except Fault Value :=
  match payload with
  | .payload variant values =>
    match Payload.field? ⟨variant, values⟩ "action" with
    | some action => .ok action
    | none => .error .noAttribute
  | _ => .error .noAttribute

def authorityAction? : Value → Option AuthorityAction
  | .choice (.authorityAction a) => some a
  | _ => none

def actionPath : AuthorityAction → String
  | .grant => grantPath
  | .revoke => revokePath

/-- The path for the action that the payload itself names. -/
def pathByAction (action : Value) : Result String :=
  if !action.hashable then .error (.fault .wrongType)
  else match authorityAction? action with
    | some a => .ok (actionPath a)
    | none =>
      Result.failShowing action fun shown => .invalidField "action" (.expected "AuthorityAction" shown)

/-- The path of an operation that is meant for one action only. -/
def pathForAction (operation : String) (wanted : AuthorityAction) (action : Value) : Result String :=
  if authorityAction? action = some wanted then .ok (actionPath wanted)
  else
    Result.failDisplaying action fun shown =>
      .invalidField "action" (.wrongAction operation (Choice.authorityAction wanted).label shown)

/-- The endpoint for a payload. -/
def path (m : SubmissionMethod) (payload : Value) : Result String :=
  match m with
  | .sendPayment => .ok "/transactions/payment"
  | .mint => .ok "/tokens/mint"
  | .burn => .ok "/tokens/burn"
  | .updateAuthority => do pathByAction (← Result.ofFault (actionOf payload))
  | .grantAuthority => do pathForAction "grant_authority" .grant (← Result.ofFault (actionOf payload))
  | .revokeAuthority => do pathForAction "revoke_authority" .revoke (← Result.ofFault (actionOf payload))
  | .pause => .ok "/tokens/pause"
  | .manageBlacklist => .ok "/tokens/manage_blacklist"
  | .manageWhitelist => .ok "/tokens/manage_whitelist"
  | .updateMetadata => .ok "/tokens/update_metadata"
  | .bridgeAndMint => .ok "/tokens/bridge_and_mint"
  | .burnAndBridge => .ok "/tokens/burn_and_bridge"

end SubmissionMethod

namespace Client

variable {ρ : Type}

def submissionLogger : String := "onemoney_client.client"

/-- A field that every payload has. -/
def payloadField (payload : Value) (name : String) : Except Fault Value :=
  match payload with
  | .payload variant values =>
    match Payload.field? ⟨variant, values⟩ name with
    | some v => .ok v
    | none => .error .noAttribute
  | _ => .error .noAttribute

/-- A payload for another chain is signed all the same, but logged. -/
def noteChain (c : Client) (chainId : Value) : Action ρ Unit := do
  if ← Action.ofFault (chainId.equalsInt c.chainId) then pure ()
  else
    let shown ← Action.ofFault chainId.display
    Action.log (.plain submissionLogger 30 ("Payload chain_id " ++ shown ++ " differs from " ++
      c.config.network.name ++ " chain_id " ++ toString c.chainId))

/-- Signs a payload and gives the body of the request. -/
def signRequest (c : Client) (payload key : Value) : Action ρ Value := do
  let chainId ← Action.ofFault (payloadField payload "chain_id")
  c.noteChain chainId
  let p ← Action.ofResult (Payload.ofValue payload)
  let signature ← Action.ofResult (Signer.signPayload c.backend p key)
  return p.toRequest signature

/-- Posts a signed body. -/
def submitSigned (c : Client) (path payload body : Value) : Action Reply Answer := do
  let data ← c.request "POST" path body .null
  let hash ← Action.ofResult (submittedHash data)
  let nonce ← Action.ofFault (payloadField payload "nonce")
  let shown ← Action.ofFault nonce.display
  Action.log (.plain submissionLogger 20 ("Submitted " ++ payload.typeName ++ " nonce=" ++ shown ++
    ": " ++ hash.mended))
  return .submitted hash payload

def submit (c : Client) (m : SubmissionMethod) (payload key : Value) : Action Reply Answer := do
  let path ← Action.ofResult (m.path payload)
  let body ← c.signRequest payload key
  c.submitSigned (.text path) payload body

end Client

end LedgerClient
