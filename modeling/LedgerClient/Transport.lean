/-!
# Connections

A transport sends through one connection. Either the caller supplied it, then it is used for ever
and never closed here; or the transport opens one when it first needs it, and after a closing the
next need opens another.
-/

namespace LedgerClient

/-- Connections are numbered in the order in which they appeared. -/
structure Transport where
  current : Option Nat
  owned : Bool
  appeared : Nat
  closed : List Nat

namespace Transport

/-- No connection yet. -/
def fresh : Transport := ⟨none, true, 0, []⟩

/-- With the caller's connection. -/
def supplied : Transport := ⟨some 0, false, 1, []⟩

/-- The connection to send through, opened when there is none. -/
def acquire (t : Transport) : Nat × Transport :=
  match t.current with
  | some n => (n, t)
  | none => (t.appeared, { t with current := some t.appeared, owned := true, appeared := t.appeared + 1 })

/-- Closes a connection that was opened here. -/
def close (t : Transport) : Transport :=
  match t.current with
  | some n => if t.owned then { t with current := none, closed := n :: t.closed } else t
  | none => t

def isClosed (t : Transport) (n : Nat) : Bool := t.closed.contains n

theorem acquire_current (t : Transport) : t.acquire.2.current = some t.acquire.1 := by
  cases h : t.current <;> simp [acquire, h]

theorem acquire_supplied : supplied.acquire = (0, supplied) := rfl

theorem close_supplied : supplied.close = supplied := rfl

theorem close_of_none {t : Transport} (h : t.current = none) : t.close = t := by simp [close, h]

theorem close_close (t : Transport) : t.close.close = t.close := by
  cases h : t.current with
  | none => simp [close, h]
  | some n => cases ho : t.owned <;> simp [close, h, ho]

end Transport

end LedgerClient
