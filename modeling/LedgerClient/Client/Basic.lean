import LedgerClient.Config.Client
import LedgerClient.Crypto.Recoverable
import LedgerClient.Hook

/-!
# The client

A client has a configuration and hooks, signs with a backend, and sends through a transport. A
transport that it set up itself is closed with it; one that a caller handed in stays open.
-/

namespace LedgerClient

structure Client where
  config : ClientConfig
  hooks : List Hook
  backend : SigningBackend
  ownsTransport : Bool

namespace Client

/-- A client on a caller's transport. -/
def onTransport (config : ClientConfig) (hooks : List Hook) (backend : SigningBackend) : Client :=
  ⟨config, hooks, backend, false⟩

/-- A client with a transport of its own. -/
def standalone (config : ClientConfig) (hooks : List Hook) (backend : SigningBackend) : Client :=
  ⟨config, hooks, backend, true⟩

def chainId (c : Client) : Nat := c.config.chainId

def text (c : Client) : String :=
  "OneMoneyClient(network=" ++ c.config.network.name ++ ", base_url=" ++ c.config.baseUrl ++ ")"

/-- The transport after the client is closed. -/
def closedTransport (c : Client) (t : Transport) : Transport := if c.ownsTransport then t.close else t

def close {ρ : Type} (c : Client) : Action ρ Unit :=
  modify fun w => { w with transport := c.closedTransport w.transport }

theorem closedTransport_onTransport (config : ClientConfig) (hooks : List Hook)
    (backend : SigningBackend) (t : Transport) :
    (onTransport config hooks backend).closedTransport t = t := rfl

theorem closedTransport_standalone (config : ClientConfig) (hooks : List Hook)
    (backend : SigningBackend) (t : Transport) :
    (standalone config hooks backend).closedTransport t = t.close := rfl

end Client

end LedgerClient
