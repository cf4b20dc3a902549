import LedgerClient.Confirmation
import LedgerClient.Proofs.Correlation
import Mathlib.Tactic.Choose

/-!
# Operations as programs of scopes

A repeated operation and a waiting for a final status are built from reports, blocks and steps that do
not concern the ids, so they are nested programs. Each block has a scope that is made right before it; so
such an operation may stand anywhere in another one, inside blocks or behind them.
-/

namespace LedgerClient.Action

variable {ρ α β : Type}

/-- The action is a nested program that enters no scope from outside, so that it may stand anywhere in
another. -/
def IsProgram (a : Action ρ α) : Prop :=
  ∃ p : Program ρ α, p.run = a ∧
    ∀ made around, (∀ n ∈ around, n < made) → p.IsNested made around

theorem isProgram_of_silent {a : Action ρ α} (h : a.Silent) : IsProgram a :=
  ⟨.act a, rfl, fun _ _ _ => h⟩

theorem isProgram_ofResult (r : Result α) : IsProgram (ofResult r : Action ρ α) := by
  refine isProgram_of_silent fun w => ?_
  rw [perform_ofResult]
  exact ⟨rfl, .refl w⟩

theorem isProgram_pure (x : α) : IsProgram (pure x : Action ρ α) := isProgram_ofResult (.ok x)

theorem isProgram_throw (f : Failure) : IsProgram (throw f : Action ρ α) := isProgram_ofResult (.error f)

theorem isProgram_emit {e : Event} (h : ∀ entry, e ≠ .note (.entry entry)) :
    IsProgram (emit e : Action ρ Unit) := by
  refine isProgram_of_silent fun w => ⟨rfl, [e], rfl, fun entry hentry _ => ?_⟩
  exact h entry (List.mem_singleton.mp hentry).symm

theorem isProgram_sleep (seconds : Value) : IsProgram (sleep seconds : Action ρ Unit) := by
  refine isProgram_of_silent fun w => ?_
  rw [perform_sleep]
  refine ⟨rfl, [.sleep seconds], rfl, fun entry hentry _ => ?_⟩
  cases List.mem_singleton.mp hentry

theorem isProgram_logAttempt (logger : String) (level : Int) (text operation : String)
    (attempt limit : Value) (more : List (String × Value)) :
    IsProgram (logAttempt logger level text operation attempt limit more : Action ρ Unit) :=
  ⟨.report ⟨logger, level, text, operation, attempt, limit, more⟩, rfl, fun _ _ _ => trivial⟩

theorem IsProgram.bind {a : Action ρ α} {f : α → Action ρ β} (ha : IsProgram a)
    (hf : ∀ x, IsProgram (f x)) : IsProgram (a >>= f) := by
  obtain ⟨first, rfl, hfirst⟩ := ha
  choose next hnext hnested using hf
  refine ⟨.bind first next, ?_, fun made around h =>
    ⟨hfirst made around h, fun x => hnested x made around h⟩⟩
  show (first.run >>= fun x => (next x).run) = _
  rw [funext hnext]

theorem IsProgram.withScope (heading : Option String) {a : Action ρ α} (ha : IsProgram a) :
    IsProgram (withScope heading a) := by
  obtain ⟨body, rfl, hbody⟩ := ha
  refine ⟨.make heading fun n => .block n body, rfl, fun made around h n hn => ?_⟩
  have hfresh : n ∉ around := fun hmem => absurd (h n hmem) (Nat.not_lt.mpr hn)
  refine ⟨Nat.lt_succ_self n, hfresh, hbody _ _ fun m hm => ?_⟩
  rcases List.mem_cons.mp hm with rfl | hm
  · exact Nat.lt_succ_self m
  · exact Nat.lt_succ_of_lt (Nat.lt_of_lt_of_le (h m hm) hn)

theorem IsProgram.exists_isNested {a : Action ρ α} (ha : IsProgram a) (made : Nat) :
    ∃ p : Program ρ α, p.run = a ∧ p.IsNested made [] := by
  obtain ⟨p, hrun, hnested⟩ := ha
  exact ⟨p, hrun, hnested made [] fun n hn => absurd hn List.not_mem_nil⟩

/-- An operation that is a program brings back the id from before. -/
theorem IsProgram.current {a : Action ρ α} (ha : IsProgram a) (w : World ρ) :
    (perform a w).2.correlation.current = w.correlation.current := by
  obtain ⟨p, rfl, hnested⟩ := ha.exists_isNested w.correlation.scopes.length
  exact hnested.restores.current

section

open Retry

variable (c : RetryConfig) (operation : String)

theorem isProgram_startAttempt (before : Nat) : IsProgram (startAttempt c before : Action ρ Unit) := by
  refine (isProgram_ofResult _).bind fun wait => (isProgram_ofResult _).bind fun b => ?_
  have hcall : IsProgram (emit .call : Action ρ Unit) := isProgram_emit fun _ => nofun
  cases b with
  | true => exact (isProgram_sleep wait).bind fun _ => hcall
  | false => exact hcall

theorem isProgram_noteSuccess (attempt : Nat) :
    IsProgram (noteSuccess c operation attempt : Action ρ Unit) := by
  unfold noteSuccess
  split
  · exact isProgram_logAttempt _ _ _ _ _ _ _
  · exact isProgram_pure ()

theorem isProgram_noteError (attempt : Nat) (e : ClientError) (again : Bool) :
    IsProgram (noteError c operation attempt e again : Action ρ Unit) := by
  unfold noteError
  split <;> exact isProgram_logAttempt _ _ _ _ _ _ _

theorem isProgram_continueRun (before : Nat) (outcomes : List (Result α)) :
    IsProgram (continueRun c operation before outcomes : Action ρ α) := by
  induction outcomes generalizing before with
  | nil => exact (isProgram_startAttempt c before).bind fun _ => isProgram_throw exhausted
  | cons outcome rest ih =>
    refine (isProgram_startAttempt c before).bind fun _ => ?_
    match outcome with
    | .ok a => exact (isProgram_noteSuccess c operation _).bind fun _ => isProgram_pure a
    | .error (.fault f) => exact isProgram_throw (.fault f)
    | .error (.client e) =>
      refine (isProgram_ofResult _).bind fun again => (isProgram_noteError c operation _ e again).bind ?_
      intro _
      split
      · exact ih (before + 1)
      · exact isProgram_throw (.client e)

/-- A repeated operation reports about its attempts and does nothing else to the ids. -/
theorem isProgram_run (outcomes : List (Result α)) :
    IsProgram (Retry.run c operation outcomes : Action ρ α) :=
  isProgram_continueRun c operation 0 outcomes

end

section

open Confirmation

variable {fetch : Value → Action ρ TransactionStatus}

theorem isProgram_note (w : Watch) (level : Int) (attempt : Value) (outcome : String) :
    IsProgram (w.note level attempt outcome : Action ρ Unit) :=
  (isProgram_ofResult _).bind fun _ => isProgram_logAttempt _ _ _ _ _ _ _

theorem isProgram_poll {w : Watch} (hfetch : IsProgram (fetch w.hash)) (done left : Nat) :
    IsProgram (w.poll fetch done left) := by
  induction left generalizing done with
  | zero => exact isProgram_pure none
  | succ left ih =>
    refine hfetch.bind fun status => ?_
    split
    · exact (isProgram_note w _ _ _).bind fun _ => isProgram_pure _
    · refine (isProgram_note w _ _ _).bind fun _ => ?_
      split
      · exact (isProgram_sleep w.interval).bind fun _ => ih _
      · exact ih _

/-- A waiting runs its rounds in a block of its own. -/
theorem isProgram_await {hash : Value} (hfetch : IsProgram (fetch hash)) (attempts interval : Value) :
    IsProgram (await fetch hash attempts interval) := by
  refine (isProgram_ofResult _).bind fun _ => (isProgram_ofResult _).bind fun operation =>
    (isProgram_ofResult _).bind fun count => IsProgram.bind (.withScope _ ?_) fun
      | some status => isProgram_pure status
      | none => (isProgram_ofResult _).bind fun e => isProgram_throw _
  exact (isProgram_poll hfetch 0 count).bind fun
    | some _ => isProgram_pure _
    | none => (isProgram_ofResult _).bind fun _ => (isProgram_note _ _ _ _).bind fun _ =>
      isProgram_pure _

theorem isProgram_fetchScripted (hash : Value) : IsProgram (fetchScripted hash) := by
  have hnext : IsProgram (nextAnswer : Action (Result TransactionStatus) _) := by
    refine isProgram_of_silent fun w => ?_
    rw [perform_nextAnswer]
    exact ⟨rfl, .refl w⟩
  refine (isProgram_emit (e := .fetch hash) fun _ => nofun).bind fun _ => hnext.bind fun answer => ?_
  cases answer with
  | some answer => exact isProgram_ofResult answer
  | none => exact isProgram_pure TransactionStatus.pending

end

end LedgerClient.Action
