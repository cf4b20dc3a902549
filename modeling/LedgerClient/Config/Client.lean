import LedgerClient.Config.EnvFile
import LedgerClient.Config.Network
import LedgerClient.Url.Query
import LedgerClient.Url.Split
import LedgerClient.Value.Number

/-!
# Configuration of a client

A setting comes from the caller, otherwise from the environment, otherwise from a default. The
defaults are taken first, in the order of the settings; then the network, the timeout and the
address of the service are checked. An address of the service replaces that of the network; the
chain id always belongs to the network.
-/

namespace LedgerClient

structure PollConfig where
  attempts : Value
  interval : Value

namespace PollConfig

def toValue (p : PollConfig) : Value := .poll p.attempts p.interval

def checkBelow (parameter : String) (bound : Nat) (v : Value) : Result Unit := do
  if ← Result.ofFault (v.isBelow bound) then
    Result.failDisplaying v fun shown => .invalidConfig parameter (.below bound shown)

/-- At least one attempt, and no negative interval. -/
def check (attempts interval : Value) : Result PollConfig := do
  checkBelow "max_attempts" 1 attempts
  checkBelow "interval_seconds" 0 interval
  return ⟨attempts, interval⟩

/-- The settings that are not given come from the environment. -/
def build (env : Environment) (attempts interval : Option Value) :
    List String × Result PollConfig :=
  let fromEnv : Setting Value :=
    match attempts with
    | some v => ⟨v, []⟩
    | none =>
      let s := env.int "ONEMONEY_POLL_MAX_ATTEMPTS" 30
      ⟨.int s.value, s.warnings⟩
  let seconds : Setting Value :=
    match interval with
    | some v => ⟨v, []⟩
    | none =>
      let s := env.float "ONEMONEY_POLL_INTERVAL_SECONDS" 1.0
      ⟨.float s.value, s.warnings⟩
  (fromEnv.warnings ++ seconds.warnings, check fromEnv.value seconds.value)

/-- Settings by position. -/
def ofArguments (env : Environment) (args : List Value) : List String × Result PollConfig :=
  match args with
  | [] => build env none none
  | [a] => build env (some a) none
  | [a, i] => build env (some a) (some i)
  | _ => ([], .error (.fault .wrongType))

/-- The settings inside a value; any other value has none. -/
def ofValue (v : Value) : Except Fault PollConfig :=
  match v with
  | .poll a i => .ok ⟨a, i⟩
  | _ => .error .noAttribute

theorem ofValue_toValue (p : PollConfig) : ofValue p.toValue = .ok p := rfl

end PollConfig

/-- A checked configuration. The polling settings that a caller hands in are looked at only when
they are needed, so a value of any shape stands there. -/
structure ClientConfig where
  network : Network
  baseUrlOverride : Option String
  timeout : Value
  poll : Value
  userAgent : Value

namespace ClientConfig

def version : String := "0.1.0"

def defaultUserAgent : String := "onemoney-python-client/" ++ version

def apiVersion : String := "/v1"

/-- A path behind the version of the service, with one leading slash at least. -/
def apiPath (path : String) : String :=
  if path.toList.head? = some '/' then apiVersion ++ path else apiVersion ++ "/" ++ path

def settingNames : List String :=
  ["network", "base_url_override", "timeout_seconds", "poll", "user_agent"]

def checkTimeout (v : Value) : Result Unit := do
  if ← Result.ofFault (v.isAtMost 0) then
    Result.failDisplaying v fun shown => .invalidConfig "timeout_seconds" (.notPositive shown)

def failUrl {α : Type} (v : Value) : Result α :=
  Result.failDisplaying v fun shown => .invalidConfig "base_url" (.notUrl shown)

def splitUrl (s : String) : Result Url.Parts :=
  match Url.split? s with
  | some parts => .ok parts
  | none => .error (.fault .badValue)

/-- The text of ASCII bytes. -/
def asciiText (bs : Bytes) : Result String :=
  if bs.all fun b => b < 128 then .ok (String.ofList (bs.map fun b => Char.ofNat b.toNat))
  else .error (.fault .notAscii)

/-- An absent address stays absent; any other must be a URL of the web. Bytes are cut like a text,
but their scheme is never one of the web. -/
def checkUrl (v : Value) : Result (Option String) :=
  match v with
  | .null => .ok none
  | .text s => do
    let parts ← splitUrl s
    if parts.isWeb then return some s else failUrl v
  | .torn t => do
    let parts ← splitUrl t.mended
    if parts.isWeb then return some t.mended else failUrl v
  | .bytes bs | .buffer bs => do
    let _ ← splitUrl (← asciiText bs)
    failUrl v
  | _ => if v.truthy then .error (.fault .noAttribute) else failUrl v

def check (network url timeout poll userAgent : Value) : Result ClientConfig := do
  let n ← Network.resolve network
  checkTimeout timeout
  let override ← checkUrl url
  return ⟨n, override, timeout, poll, userAgent⟩

def textSetting (env : Environment) (name : String) (default : Value) : Value :=
  ((env.text? name).map Value.text).getD default

/-- Builds a configuration from the settings given by name. -/
def build (env : Environment) (given : List (String × Value)) :
    List String × Result ClientConfig :=
  if given.any fun g => !settingNames.contains g.1 then ([], .error (.fault .wrongType))
  else
    let network := (given.lookup "network").getD (textSetting env "ONEMONEY_NETWORK" (.text "mainnet"))
    let url := (given.lookup "base_url_override").getD (textSetting env "ONEMONEY_BASE_URL" .null)
    let timeout : Setting Value :=
      match given.lookup "timeout_seconds" with
      | some v => ⟨v, []⟩
      | none =>
        let s := env.float "ONEMONEY_TIMEOUT_SECONDS" 30.0
        ⟨.float s.value, s.warnings⟩
    let (pollWarnings, poll) :=
      match given.lookup "poll" with
      | some v => ([], .ok v)
      | none =>
        let (warnings, built) := PollConfig.build env none none
        (warnings, built.map PollConfig.toValue)
    let userAgent := (given.lookup "user_agent").getD (.text defaultUserAgent)
    (timeout.warnings ++ pollWarnings, do check network url timeout.value (← poll) userAgent)

/-- The configuration for one of the known networks, whatever address the environment names. -/
def ofNetwork (env : Environment) (n : Network) : List String × Result ClientConfig :=
  build env [("network", .text n.name), ("base_url_override", .null)]

/-- Loads a file into the environment, which keeps its variables, and builds the configuration from
the environment alone. -/
def reload (env : Environment) (file : String) :
    Environment × List String × Result ClientConfig :=
  match env.load file with
  | (loaded, .ok _) => (loaded, build loaded [])
  | (loaded, .error fault) => (loaded, [], .error (.fault fault))

def missingFile (path : String) : Result ClientConfig :=
  .fail (.invalidConfig "env_file" (.notFound path))

def dropSlashes (s : String) : String :=
  String.ofList (s.toList.reverse.dropWhile (· = '/')).reverse

/-- The address of the service without slashes at its end. -/
def baseUrl (c : ClientConfig) : String :=
  dropSlashes ((c.baseUrlOverride.filter fun s => !s.isEmpty).getD c.network.baseUrl)

def chainId (c : ClientConfig) : Nat := c.network.chainId

def pollAttempts (c : ClientConfig) : Except Fault Value :=
  (PollConfig.ofValue c.poll).map PollConfig.attempts

def pollInterval (c : ClientConfig) : Except Fault Value :=
  (PollConfig.ofValue c.poll).map PollConfig.interval

def urlFor (c : ClientConfig) (path : String) : String := c.baseUrl ++ apiPath path

/-- The URL of a request, its parameters as the query. -/
def requestUrl (c : ClientConfig) (path params : Value) : Except Fault String :=
  match path with
  | .text s => Url.withParameters (c.urlFor s) params
  | .torn t => Url.withParameters (c.urlFor t.mended) params
  | .bytes _ | .buffer _ => .error .wrongType
  | _ => .error .noAttribute

theorem chainId_eq (c : ClientConfig) : c.chainId = c.network.chainId := rfl

end ClientConfig

end LedgerClient
