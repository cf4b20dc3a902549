import LedgerClient.Error.Code

/-!
# Named choices of the protocol

Each action, role, status and error code has a label on the wire and an identifier of its own. A
family is the set of choices that one field may hold.
-/

namespace LedgerClient

inductive AuthorityAction where
  | grant
  | revoke
  deriving DecidableEq, Repr

inductive Authority where
  | masterMintBurn
  | mintBurnTokens
  | pause
  | manageList
  | updateMetadata
  deriving DecidableEq, Repr

inductive PauseAction where
  | pause
  | unpause
  deriving DecidableEq, Repr

inductive ListAction where
  | add
  | remove
  deriving DecidableEq, Repr

/-- Pending is the only status that can still change. -/
inductive TransactionStatus where
  | pending
  | confirmed
  | failed
  deriving DecidableEq, Repr

namespace TransactionStatus

def isTerminal : TransactionStatus → Bool
  | .pending => false
  | .confirmed | .failed => true

def label : TransactionStatus → String
  | .pending => "pending"
  | .confirmed => "confirmed"
  | .failed => "failed"

def ofLabel? (s : String) : Option TransactionStatus :=
  [pending, confirmed, failed].find? (·.label = s)

theorem ofLabel?_label (s : TransactionStatus) : ofLabel? s.label = some s := by cases s <;> decide

theorem isTerminal_iff (s : TransactionStatus) : s.isTerminal = true ↔ s ≠ .pending := by
  cases s <;> simp [isTerminal]

end TransactionStatus

inductive Family where
  | authorityAction
  | authority
  | pauseAction
  | blacklistAction
  | whitelistAction
  | transactionStatus
  | errorCode
  deriving DecidableEq, Repr

/-- A choice together with the family that it belongs to. -/
inductive Choice where
  | authorityAction (action : AuthorityAction)
  | authority (role : Authority)
  | pauseAction (action : PauseAction)
  | blacklistAction (action : ListAction)
  | whitelistAction (action : ListAction)
  | transactionStatus (status : TransactionStatus)
  | errorCode (code : ErrorCode)
  deriving DecidableEq, Repr

namespace Family

def name : Family → String
  | .authorityAction => "AuthorityAction"
  | .authority => "Authority"
  | .pauseAction => "PauseAction"
  | .blacklistAction => "BlacklistAction"
  | .whitelistAction => "WhitelistAction"
  | .transactionStatus => "TransactionStatus"
  | .errorCode => "ErrorCode"

def all : List Family :=
  [authorityAction, authority, pauseAction, blacklistAction, whitelistAction, transactionStatus,
    errorCode]

/-- The choices of a family in the order in which they are listed to a caller. -/
def members : Family → List Choice
  | .authorityAction => [.authorityAction .grant, .authorityAction .revoke]
  | .authority =>
    [.authority .masterMintBurn, .authority .mintBurnTokens, .authority .pause,
      .authority .manageList, .authority .updateMetadata]
  | .pauseAction => [.pauseAction .pause, .pauseAction .unpause]
  | .blacklistAction => [.blacklistAction .add, .blacklistAction .remove]
  | .whitelistAction => [.whitelistAction .add, .whitelistAction .remove]
  | .transactionStatus =>
    [.transactionStatus .pending, .transactionStatus .confirmed, .transactionStatus .failed]
  | .errorCode => ErrorCode.all.map .errorCode

end Family

namespace Choice

def family : Choice → Family
  | .authorityAction _ => .authorityAction
  | .authority _ => .authority
  | .pauseAction _ => .pauseAction
  | .blacklistAction _ => .blacklistAction
  | .whitelistAction _ => .whitelistAction
  | .transactionStatus _ => .transactionStatus
  | .errorCode _ => .errorCode

def listLabel : ListAction → String
  | .add => "Add"
  | .remove => "Remove"

def listIdentifier : ListAction → String
  | .add => "ADD"
  | .remove => "REMOVE"

/-- The name on the wire and in signed bytes. -/
def label : Choice → String
  | .authorityAction .grant => "Grant"
  | .authorityAction .revoke => "Revoke"
  | .authority .masterMintBurn => "MasterMintBurn"
  | .authority .mintBurnTokens => "MintBurnTokens"
  | .authority .pause => "Pause"
  | .authority .manageList => "ManageList"
  | .authority .updateMetadata => "UpdateMetadata"
  | .pauseAction .pause => "Pause"
  | .pauseAction .unpause => "Unpause"
  | .blacklistAction action => listLabel action
  | .whitelistAction action => listLabel action
  | .transactionStatus status => status.label
  | .errorCode code => code.number

def identifier : Choice → String
  | .authorityAction .grant => "GRANT"
  | .authorityAction .revoke => "REVOKE"
  | .authority .masterMintBurn => "MASTER_MINT_BURN"
  | .authority .mintBurnTokens => "MINT_BURN_TOKENS"
  | .authority .pause => "PAUSE"
  | .authority .manageList => "MANAGE_LIST"
  | .authority .updateMetadata => "UPDATE_METADATA"
  | .pauseAction .pause => "PAUSE"
  | .pauseAction .unpause => "UNPAUSE"
  | .blacklistAction action => listIdentifier action
  | .whitelistAction action => listIdentifier action
  | .transactionStatus .pending => "PENDING"
  | .transactionStatus .confirmed => "CONFIRMED"
  | .transactionStatus .failed => "FAILED"
  | .errorCode code => code.identifier

/-- Family and identifier joined by a point. -/
def path (c : Choice) : String := c.family.name ++ "." ++ c.identifier

/-- The label, except for a status and an error code, which are shown by their path. -/
def text (c : Choice) : String :=
  match c with
  | .transactionStatus _ | .errorCode _ => c.path
  | _ => c.label

/-- The path with the quoted label, between angle brackets. -/
def detailed (c : Choice) : String := "<" ++ c.path ++ ": '" ++ c.label ++ "'>"

def ofPath? (s : String) : Option Choice :=
  (Family.all.flatMap Family.members).find? (·.path = s)

theorem mem_members (c : Choice) : c ∈ c.family.members := by
  cases c with
  | authorityAction a => cases a <;> decide
  | authority a => cases a <;> decide
  | pauseAction a => cases a <;> decide
  | blacklistAction a => cases a <;> decide
  | whitelistAction a => cases a <;> decide
  | transactionStatus a => cases a <;> decide
  | errorCode a => cases a <;> decide

end Choice

end LedgerClient
