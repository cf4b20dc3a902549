import LedgerClient.Value.Conversion

/-!
# Computations that may fail

A sequence of steps succeeds exactly when each step does.
-/

namespace LedgerClient

theorem error_ne_ok {ε α : Type} {e : ε} {a : α} : (.error e : Except ε α) ≠ .ok a := by
  intro h
  cases h

theorem bind_eq_ok {ε α β : Type} {x : Except ε α} {f : α → Except ε β} {b : β} :
    x >>= f = .ok b ↔ ∃ a, x = .ok a ∧ f a = .ok b := by
  cases x with
  | error e => simp [bind, Except.bind]
  | ok a => simp [bind, Except.bind]

theorem bind_eq_error {ε α β : Type} {x : Except ε α} {f : α → Except ε β} {e : ε} :
    x >>= f = .error e ↔ x = .error e ∨ ∃ a, x = .ok a ∧ f a = .error e := by
  cases x with
  | error e => simp [bind, Except.bind]
  | ok a => simp [bind, Except.bind]

theorem pure_eq_ok {ε α : Type} {a b : α} : (pure a : Except ε α) = .ok b ↔ a = b := by
  simp [pure, Except.pure]

theorem ofFault_eq_ok {α : Type} {x : Except Fault α} {a : α} :
    Result.ofFault x = .ok a ↔ x = .ok a := by
  cases x with
  | error f => exact iff_of_false error_ne_ok error_ne_ok
  | ok b => simp only [Result.ofFault_ok, Except.ok.injEq]

theorem ofFault_bind {α β : Type} (x : Except Fault α) (f : α → Except Fault β) :
    Result.ofFault (x >>= f) = Result.ofFault x >>= fun a => Result.ofFault (f a) := by
  cases x with
  | error g => rfl
  | ok a => rfl

theorem map_eq_ok {ε α β : Type} {x : Except ε α} {f : α → β} {b : β} :
    x.map f = .ok b ↔ ∃ a, x = .ok a ∧ f a = b := by
  cases x with
  | error e => simp [Except.map]
  | ok a => simp [Except.map]

theorem exists_of_isOk {ε α : Type} {x : Except ε α} (h : x.isOk = true) : ∃ a, x = .ok a := by
  cases x with
  | error e => cases h
  | ok a => exact ⟨a, rfl⟩

theorem exists_of_toOption_map {ε α β : Type} {x : Except ε α} {f : α → β} {b : β}
    (h : x.toOption.map f = some b) : ∃ a, x = .ok a ∧ f a = b := by
  cases x with
  | error e => cases h
  | ok a => exact ⟨a, rfl, Option.some.inj h⟩

theorem failShowing_ne_ok {α : Type} (v : Value) (e : String → ClientError) (a : α) :
    (Result.failShowing v e : Result α) ≠ .ok a := by
  unfold Result.failShowing
  cases Result.ofFault v.detailed <;> exact error_ne_ok

theorem failDisplaying_ne_ok {α : Type} (v : Value) (e : String → ClientError) (a : α) :
    (Result.failDisplaying v e : Result α) ≠ .ok a := by
  unfold Result.failDisplaying
  cases Result.ofFault v.display <;> exact error_ne_ok

/-! ## What a computation fails with -/

/-- Every failure has the property. -/
def FailsOnly {ε α : Type} (P : ε → Prop) (x : Except ε α) : Prop := ∀ e, x = .error e → P e

namespace FailsOnly

variable {ε α β : Type} {P Q : ε → Prop}

theorem ok (a : α) : FailsOnly P (.ok a) := fun _ h => absurd h.symm error_ne_ok

theorem error {e : ε} (h : P e) : FailsOnly P (.error e : Except ε α) := by
  intro e' h'
  cases h'
  exact h

theorem mono {x : Except ε α} (h : FailsOnly P x) (hPQ : ∀ e, P e → Q e) : FailsOnly Q x :=
  fun e he => hPQ e (h e he)

theorem bind {x : Except ε α} {f : α → Except ε β} (hx : FailsOnly P x)
    (hf : ∀ a, x = .ok a → FailsOnly P (f a)) : FailsOnly P (x >>= f) := by
  cases x with
  | error e => exact .error (hx e rfl)
  | ok a => exact hf a rfl

theorem map {x : Except ε α} (f : α → β) (hx : FailsOnly P x) : FailsOnly P (x.map f) := by
  cases x with
  | error e => exact .error (hx e rfl)
  | ok a => exact .ok (f a)

end FailsOnly

/-- The failure is an error about an encoding. -/
def Failure.IsEncoding (f : Failure) : Prop := ∃ cause, f = .client (.encoding cause)

theorem failsOnly_encoding {α : Type} (cause : EncodingCause) :
    FailsOnly Failure.IsEncoding (Result.fail (.encoding cause) : Result α) := .error ⟨cause, rfl⟩

end LedgerClient
