import LedgerClient.Client.Call
import LedgerClient.Client.Parts
import LedgerClient.Error.Named
import LedgerClient.Logging.Tree
import LedgerClient.Retry
import LedgerClient.Url.Wire
import LedgerClient.Proofs.Address.Codec
import LedgerClient.Proofs.Amount.Run
import LedgerClient.Proofs.Amount.Units
import LedgerClient.Proofs.Client.Confirmation
import LedgerClient.Proofs.Client.Connection
import LedgerClient.Proofs.Client.Order
import LedgerClient.Proofs.Client.Outcome
import LedgerClient.Proofs.Client.Query
import LedgerClient.Proofs.Client.Submission
import LedgerClient.Proofs.Config
import LedgerClient.Proofs.Config.Endpoint
import LedgerClient.Proofs.Config.Rejection
import LedgerClient.Proofs.Config.Reload
import LedgerClient.Proofs.Confirmation.Scripted
import LedgerClient.Proofs.Correlation.Operation
import LedgerClient.Proofs.Payload.Canonical
import LedgerClient.Proofs.Payload.Encodable
import LedgerClient.Proofs.Payload.Injectivity
import LedgerClient.Proofs.Payload.Refusal
import LedgerClient.Proofs.Payload.Request
import LedgerClient.Proofs.Payload.Typing
import LedgerClient.Proofs.Response.Checkpoint
import LedgerClient.Proofs.Response.Exactness
import LedgerClient.Proofs.Retry.Failure
import LedgerClient.Proofs.Signature
import LedgerClient.Proofs.Signer.Acceptance
import LedgerClient.Proofs.Signer.Verification
