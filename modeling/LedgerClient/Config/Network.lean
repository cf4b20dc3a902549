import LedgerClient.Text.Blank
import LedgerClient.Text.LetterCase
import LedgerClient.Value.Conversion

/-!
# Networks

Three networks are known. Each has the address of its service, and the chain id that payloads for
it carry.
-/

namespace LedgerClient

inductive Network where
  | mainnet
  | testnet
  | loopback
  deriving DecidableEq, Repr

namespace Network

def all : List Network := [mainnet, testnet, loopback]

def name : Network → String
  | .mainnet => "mainnet"
  | .testnet => "testnet"
  | .loopback => "local"

def baseUrl : Network → String
  | .mainnet => "https://api.mainnet.1money.network"
  | .testnet => "https://api.testnet.1money.network"
  | .loopback => "http://127.0.0.1:18555"

def chainId : Network → Nat
  | .mainnet => 21210
  | .testnet => 1212101
  | .loopback => 1212101

def isProduction : Network → Bool
  | .mainnet => true
  | _ => false

/-- A network is found by its name in any case, blanks around it ignored. -/
def ofName? (s : String) : Option Network :=
  let key := Text.lower (Text.trim s)
  all.find? (·.name = key)

theorem mem_all (n : Network) : n ∈ all := by cases n <;> decide

theorem chainId_pos (n : Network) : 0 < n.chainId := by cases n <;> decide

def unknown (v : Value) : Result Network :=
  Result.failDisplaying v fun shown => .invalidConfig "network" (.unknownNetwork shown (all.map name))

def resolve (v : Value) : Result Network :=
  match v with
  | .text s => (ofName? s).elim (unknown v) .ok
  | _ => unknown v

end Network

end LedgerClient
