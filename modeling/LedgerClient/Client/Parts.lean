import LedgerClient.Client.Basic

/-!
# The parts of a client

A client is made with a transport, an encoder and a signer. Each of its modules is made when it is first
asked for and is the same one from then on, but a poller is made anew each time.
-/

namespace LedgerClient.Client

inductive PartKind where
  | transport
  | encoder
  | signer
  | transactions
  | tokens
  | accounts
  | states
  | poller
  deriving DecidableEq, Repr

def PartKind.name : PartKind → String
  | .transport => "HttpxTransport"
  | .encoder => "CanonicalEncoder"
  | .signer => "Signer"
  | .transactions => "TransactionsModule"
  | .tokens => "TokensModule"
  | .accounts => "AccountsModule"
  | .states => "StatesModule"
  | .poller => "ConfirmationPoller"

/-- A part, told from the others by its place among all that were made. -/
structure Part where
  kind : PartKind
  place : Nat
  deriving DecidableEq, Repr

/-- The parts that a client keeps, and how many were made for it. -/
structure Parts where
  kept : List Part
  made : Nat

namespace Parts

/-- What a client with a transport of its own is made with. -/
def fresh : Parts := ⟨[⟨.transport, 0⟩, ⟨.encoder, 1⟩, ⟨.signer, 2⟩], 3⟩

/-- The part of a kind that is kept. -/
def get (ps : Parts) (kind : PartKind) : Part × Parts :=
  match ps.kept.find? fun p => p.kind = kind with
  | some p => (p, ps)
  | none => (⟨kind, ps.made⟩, ⟨⟨kind, ps.made⟩ :: ps.kept, ps.made + 1⟩)

/-- A poller asks for the status through the module of transactions. -/
def poller (ps : Parts) : Part × Parts :=
  let after := (ps.get .transactions).2
  (⟨.poller, after.made⟩, { after with made := after.made + 1 })

theorem kind_get (ps : Parts) (kind : PartKind) : (ps.get kind).1.kind = kind := by
  unfold get
  split
  · next p h => simpa using List.find?_some h
  · rfl

theorem made_le_get (ps : Parts) (kind : PartKind) : ps.made ≤ (ps.get kind).2.made := by
  unfold get
  split
  · exact Nat.le.refl
  · exact Nat.le_succ _

/-- What was asked for once is kept. -/
theorem get_get (ps : Parts) (kind : PartKind) : (ps.get kind).2.get kind = ps.get kind := by
  cases h : ps.kept.find? fun p => p.kind = kind with
  | some p =>
    have hget : ps.get kind = (p, ps) := by simp only [get, h]
    rw [hget, hget]
  | none => simp [get, h]

/-- Two pollers are never the same. -/
theorem poller_ne_poller (ps : Parts) : ps.poller.1 ≠ ps.poller.2.poller.1 := by
  intro h
  have hplace : (ps.get .transactions).2.made = (ps.poller.2.get .transactions).2.made :=
    congrArg Part.place h
  have hlater : (ps.get .transactions).2.made + 1 ≤ (ps.poller.2.get .transactions).2.made :=
    made_le_get ps.poller.2 .transactions
  omega

end Parts

end LedgerClient.Client
