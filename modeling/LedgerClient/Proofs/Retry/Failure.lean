import LedgerClient.Proofs.Retry.Delay
import LedgerClient.Proofs.Trace.Orderly

/-!
# The failures of a retried operation

A run fails with what one of the calls failed with, with the interruption of a sleep, or with the fault of a
delay while attempts are left. Under settings that are numbers this fault is an overflow, and a run that
comes to a delay beyond the format ends with it, although the cap was to hold for every delay.
-/

namespace LedgerClient

namespace Action

variable {ρ α β : Type} {s : Option Nat} {P : Failure → Prop}

/-- Wherever sleeps are interrupted as told, every failure of the action has the property. -/
def FailsIn (s : Option Nat) (P : Failure → Prop) (a : Action ρ α) : Prop :=
  ∀ w : World ρ, w.interruptedSleep = s → FailsOnly P (perform a w).1

theorem failsIn_pure (x : α) : FailsIn s P (pure x : Action ρ α) := fun _ _ => .ok x

theorem failsIn_throw {f : Failure} (h : P f) : FailsIn s P (throw f : Action ρ α) := fun _ _ => .error h

theorem failsIn_emit (e : Event) : FailsIn s P (emit e : Action ρ Unit) := fun _ _ => .ok ()

theorem FailsIn.bind {a : Action ρ α} {f : α → Action ρ β} (ha : FailsIn s P a) (horderly : Orderly a)
    (hf : ∀ x, FailsIn s P (f x)) : FailsIn s P (a >>= f) := by
  intro w hw
  have hfirst := ha w hw
  obtain ⟨es, hextends⟩ := horderly w
  rw [perform_bind]
  rcases hperform : perform a w with ⟨_ | x, after⟩
  · rw [hperform] at hfirst
    exact .error (hfirst _ rfl)
  · rw [hperform] at hextends
    exact hf x after (hextends.interruptedSleep.trans hw)

/-- What a step without effect on the world gives is known to the rest. -/
theorem failsIn_ofFault_bind {x : Except Fault α} {f : α → Action ρ β}
    (hx : FailsOnly (fun g => P (.fault g)) x) (hf : ∀ a, x = .ok a → FailsIn s P (f a)) :
    FailsIn s P (ofFault x >>= f) := by
  intro w hw
  rw [perform_bind, ofFault, perform_ofResult]
  cases x with
  | ok a => exact hf a rfl w hw
  | error g => exact .error (hx g rfl)

theorem failsIn_sleep (seconds : Value) (h : s ≠ none → P (.fault .cancelled)) :
    FailsIn s P (sleep seconds : Action ρ Unit) := by
  intro w hw
  rw [perform_sleep, hw]
  show FailsOnly P (if s = _ then _ else _)
  split
  · next hinterrupted => exact .error (h (hinterrupted ▸ Option.some_ne_none _))
  · exact .ok ()

theorem failsIn_logAttempt (logger : String) (level : Int) (text operation : String)
    (attempt limit : Value) (more : List (String × Value))
    (h : FailsOnly (fun g => P (.fault g)) (progressText attempt limit)) :
    FailsIn s P (logAttempt logger level text operation attempt limit more : Action ρ Unit) := by
  intro w _
  cases hprogress : progressText attempt limit with
  | ok progress =>
    rw [(course_logAttempt logger level text operation more hprogress w).result]
    exact .ok ()
  | error g =>
    rw [(course_logAttempt_of_error logger level text operation more hprogress w).result]
    exact .error (h g hprogress)

end Action

namespace Retry

open LedgerClient.Action

variable {ρ α : Type} {c : RetryConfig} {m : ℤ} {s : Option Nat} {outcomes : List (Result α)}
  {operation : String}

/-- What a run may fail with: the failure of a call, the interruption of a sleep, the fault of a delay with
attempts left, and the fault that stands for a limit without a text. -/
inductive Escapes (c : RetryConfig) (m : ℤ) (s : Option Nat) (outcomes : List (Result α)) :
    Failure → Prop where
  | call {f : Failure} (h : .error f ∈ outcomes) : Escapes c m s outcomes f
  | exhausted : Escapes c m s outcomes exhausted
  | interrupted (h : s ≠ none) : Escapes c m s outcomes (.fault .cancelled)
  | delay {i : ℕ} {g : Fault} (hpos : 1 ≤ i) (hleft : (i : ℤ) < m) (h : c.delay i = .error g) :
      Escapes c m s outcomes (.fault g)
  | endless (h : Integer.textBound ≤ m.natAbs) : Escapes c m s outcomes (.fault .badValue)

/-! ## One call -/

theorem orderly_startAttempt (c : RetryConfig) (made : ℕ) :
    Orderly (startAttempt c made : Action ρ Unit) := by
  refine (orderly_ofResult _).bind fun wait => (orderly_ofResult _).bind fun ready => ?_
  cases ready with
  | true => exact (orderly_sleep wait).bind fun _ => orderly_emit rfl
  | false => exact orderly_emit rfl

theorem orderly_note (c : RetryConfig) (operation : String) (attempt : ℕ) (level : ℤ) (text : String)
    (kind : Option String) : Orderly (note c operation attempt level text kind : Action ρ Unit) :=
  kept_extends.logAttempt _ _ _ _ _ _ _

theorem orderly_noteSuccess (c : RetryConfig) (operation : String) (attempt : ℕ) :
    Orderly (noteSuccess c operation attempt : Action ρ Unit) := by
  unfold noteSuccess
  split
  · exact orderly_note _ _ _ _ _ _
  · exact orderly_pure ()

theorem orderly_noteError (c : RetryConfig) (operation : String) (attempt : ℕ) (e : ClientError)
    (again : Bool) : Orderly (noteError c operation attempt e again : Action ρ Unit) := by
  unfold noteError
  split
  · exact orderly_note _ _ _ _ _ _
  · exact orderly_note _ _ _ _ _ _

section

variable {made : ℕ} (hmade : made = 0 ∨ (made : ℤ) < m)

include hmade

theorem failsIn_startAttempt (hcap : c.maxDelay.IsNumber) :
    FailsIn s (Escapes c m s outcomes) (startAttempt c made : Action ρ Unit) := by
  refine failsIn_ofFault_bind ?_ fun wait hwait => ?_
  · intro g hg
    rcases hmade with rfl | hleft
    · exact absurd (hg.symm.trans c.delay_first) error_ne_ok
    · refine .delay (Nat.one_le_iff_ne_zero.mpr ?_) hleft hg
      rintro rfl
      exact absurd (hg.symm.trans c.delay_first) error_ne_ok
  · obtain ⟨wait', b, hdelay, habove⟩ := RetryConfig.hasDelay_of_delay hcap hwait
    obtain rfl : wait' = wait := Except.ok.inj (hdelay.symm.trans hwait)
    rw [habove]
    refine failsIn_ofFault_bind (.ok b) fun ready _ => ?_
    cases ready with
    | true => exact (failsIn_sleep wait' .interrupted).bind (orderly_sleep wait') fun _ => failsIn_emit _
    | false => exact failsIn_emit _

theorem failsOnly_progressText :
    FailsOnly (fun g => Escapes c m s outcomes (.fault g))
      (progressText (.int (made + 1 : ℕ)) (.int m)) := by
  have hpos : 1 < Integer.textBound := Integer.lt_textBound (by decide)
  rcases Nat.lt_or_ge m.natAbs Integer.textBound with hbound | hbound
  · obtain ⟨progress, hprogress⟩ := exists_progressText (a := (made + 1 : ℕ)) (by omega) hbound
    rw [hprogress]
    exact .ok progress
  · rw [progressText_of_endless _ hbound]
    exact .error (.endless hbound)

variable (hlimit : c.maxAttempts = .int m)

include hlimit

theorem failsIn_note (level : ℤ) (text : String) (kind : Option String) :
    FailsIn s (Escapes c m s outcomes) (note c operation (made + 1) level text kind : Action ρ Unit) := by
  unfold note
  rw [hlimit]
  exact failsIn_logAttempt _ _ _ _ _ _ _ (failsOnly_progressText hmade)

theorem failsIn_noteSuccess :
    FailsIn s (Escapes c m s outcomes) (noteSuccess c operation (made + 1) : Action ρ Unit) := by
  unfold noteSuccess
  split
  · exact failsIn_note hmade hlimit _ _ _
  · exact failsIn_pure ()

theorem failsIn_noteError (e : ClientError) (again : Bool) :
    FailsIn s (Escapes c m s outcomes) (noteError c operation (made + 1) e again : Action ρ Unit) := by
  unfold noteError
  split
  · exact failsIn_note hmade hlimit _ _ _
  · exact failsIn_note hmade hlimit _ _ _

end

/-! ## Whole runs -/

theorem failsIn_continueRun (hlimit : c.maxAttempts = .int m) (hcap : c.maxDelay.IsNumber)
    (left : List (Result α)) {made : ℕ} (hmade : made = 0 ∨ (made : ℤ) < m)
    (hleft : ∀ o ∈ left, o ∈ outcomes) :
    FailsIn s (Escapes c m s outcomes) (continueRun c operation made left : Action ρ α) := by
  induction left generalizing made with
  | nil =>
    exact (failsIn_startAttempt hmade hcap).bind (orderly_startAttempt c made) fun _ =>
      failsIn_throw .exhausted
  | cons outcome left ih =>
    have houtcome := hleft outcome List.mem_cons_self
    refine (failsIn_startAttempt hmade hcap).bind (orderly_startAttempt c made) fun _ => ?_
    match outcome with
    | .ok a =>
      exact (failsIn_noteSuccess hmade hlimit).bind (orderly_noteSuccess _ _ _) fun _ => failsIn_pure a
    | .error (.fault f) => exact failsIn_throw (.call houtcome)
    | .error (.client e) =>
      simp only [isWorthwhile_eq hlimit]
      refine failsIn_ofFault_bind (.ok _) fun again hagain => ?_
      refine (failsIn_noteError hmade hlimit e again).bind (orderly_noteError _ _ _ _ _) fun _ => ?_
      cases again with
      | false => exact failsIn_throw (.call houtcome)
      | true =>
        -- Another attempt is left, so the next delay counts.
        have hverdict := Bool.and_eq_true_iff.mp (Except.ok.inj hagain)
        exact ih (.inr (of_decide_eq_true hverdict.2)) fun o ho => hleft o (List.mem_cons_of_mem _ ho)

theorem failsOnly_run (hlimit : c.maxAttempts = .int m) (hcap : c.maxDelay.IsNumber) (operation : String)
    (outcomes : List (Result α)) (w : World ρ) :
    FailsOnly (Escapes c m w.interruptedSleep outcomes) (perform (run c operation outcomes) w).1 :=
  failsIn_continueRun hlimit hcap outcomes (.inl rfl) (fun _ ho => ho) w rfl

/-- A delay that has a fault ends the run, once it is reached. -/
theorem course_faulty (hlimit : c.maxAttempts = .int m) (hbound : m.natAbs < Integer.textBound) {g : Fault}
    (rest : List (Result α)) (front : List (Result α)) {made : ℕ}
    (hdelay : ∀ i < front.length, c.HasDelay (made + i))
    (hfault : c.delay (made + front.length : ℕ) = .error g) (hfront : ∀ o ∈ front, IsTransient o)
    (hleft : ((made + front.length : ℕ) : ℤ) < m) {w : World ρ} (hsleep : w.interruptedSleep = none) :
    Course (continueRun c operation made (front ++ rest)) w (.error (.fault g))
      (c.calls made front.length) w.answers := by
  induction front generalizing made w with
  | nil =>
    have hstart : Course (startAttempt c made) w (.error (.fault g)) [] w.answers := by
      unfold startAttempt
      rw [show c.delay made = .error g from hfault]
      exact (course_throw (.fault g) w).bind_error _
    cases rest <;> exact hstart.bind_error _
  | cons outcome front ih =>
    have hlength : made + (outcome :: front).length = made + 1 + front.length := by
      rw [List.length_cons, Nat.add_assoc, Nat.add_comm 1]
    rw [hlength] at hfault hleft
    push_cast at hleft
    refine course_again hlimit hbound (by omega) (hdelay 0 (Nat.succ_pos _))
      (hfront outcome List.mem_cons_self) (by omega) hsleep fun after hafter => ?_
    refine ih (fun i hi => ?_) hfault (fun o ho => hfront o (List.mem_cons_of_mem _ ho))
      (by push_cast; omega) hafter
    rw [Nat.add_assoc, Nat.add_comm 1]
    exact hdelay (i + 1) (Nat.succ_lt_succ hi)

/-! ## Settings that are numbers -/

section

open Binary (limit)

variable {initial growth cap : ℚ}

/-- A run that comes to a delay beyond the format ends with the overflow. -/
theorem run_overflows (h : c.Denotes initial growth cap) (hlimit : c.maxAttempts = .int m)
    (hbound : m.natAbs < Integer.textBound) (operation : String) {front : List (Result α)}
    (rest : List (Result α)) (hfront : ∀ o ∈ front, IsTransient o) (hleft : (front.length : ℤ) < m)
    (hcapped : ∀ i < front.length, c.IsCapped cap (i : ℕ))
    (hoverflow : c.delay front.length = .error .overflow) {w : World ρ}
    (hsleep : w.interruptedSleep = none) :
    (perform (run c operation (front ++ rest)) w).1 = .error (.fault .overflow) := by
  refine Course.result (course_faulty hlimit hbound rest front (fun i hi => ?_) ?_ hfront ?_ hsleep)
  · rw [Nat.zero_add]
    obtain ⟨wait, y, hwait, -⟩ := hcapped i hi
    exact RetryConfig.hasDelay_of_delay h.maxDelay.isNumber hwait
  · rw [Nat.zero_add]
    exact hoverflow
  · rw [Nat.zero_add]
    exact hleft

/-! ### The standard delays -/

theorem denotes_fields {x : Float} {k : ℕ} {e : ℤ} (hfinite : Binary.isFinite x = true)
    (hpositive : Binary.isNegative x = false) (hmantissa : (Binary.exact x).mantissa = k)
    (hexponent : (Binary.exact x).exponent = e) : Value.Denotes (.float x) (k * 2 ^ e) :=
  .float ⟨hfinite, fun _ => hpositive, by rw [hmantissa, hexponent]⟩

theorem denotes_limited (m : ℤ) : (limited m).Denotes (7205759403792794 * 2 ^ (-56 : ℤ)) 2 60 where
  initialDelay := by
    have hinitial : Value.Denotes (.float 0.1) ((7205759403792794 : ℕ) * 2 ^ (-56 : ℤ)) :=
      denotes_fields (by decide +kernel) (by decide +kernel) (by decide +kernel) (by decide +kernel)
    exact_mod_cast hinitial
  multiplier := by
    have hmultiplier : Value.Denotes (.float 2.0) ((2 ^ 52 : ℕ) * 2 ^ (-51 : ℤ)) :=
      denotes_fields (by decide +kernel) (by decide +kernel) (by decide +kernel) (by decide +kernel)
    norm_num at hmultiplier
    exact hmultiplier
  maxDelay := by
    have hcap : Value.Denotes (.float 60.0) ((15 * 2 ^ 49 : ℕ) * 2 ^ (-47 : ℤ)) :=
      denotes_fields (by decide +kernel) (by decide +kernel) (by decide +kernel) (by decide +kernel)
    norm_num at hcap
    exact hcap

theorem isCapped_limited (m : ℤ) {i : ℕ} (hi : i ≤ 1024) : (limited m).IsCapped 60 i := by
  have h := denotes_limited m
  cases i with
  | zero => exact h.isCapped_of_nonpos le_rfl
  | succ n =>
    push_cast
    refine h.isCapped_of_lt (by omega) (h.initialDelay.lt_limit ⟨_, rfl⟩) ?_
    calc (2 : ℚ) ^ n ≤ 2 ^ 1023 := pow_le_pow_right₀ one_le_two (by omega)
      _ = 2 ^ (1023 : ℤ) := (zpow_ofNat 2 1023).symm
      _ < limit := Binary.pow_lt_limit

/-- As many transient failures as there are delays that can be computed. -/
def losses : List (Result ℕ) := List.replicate 1025 lost

theorem length_losses : losses.length = 1025 := List.length_replicate

theorem isTransient_of_mem_losses : ∀ o ∈ losses, IsTransient o := by
  intro o ho
  rw [List.eq_of_mem_replicate ho]
  rfl

theorem isCapped_of_lt_losses (m : ℤ) : ∀ i < losses.length, (limited m).IsCapped 60 (i : ℕ) := by
  rw [length_losses]
  exact fun i hi => isCapped_limited m (Nat.le_of_lt_succ hi)

theorem limited_overflows (m : ℤ) : (limited m).delay losses.length = .error .overflow := by
  rw [length_losses]
  exact (denotes_limited m).overflows (n := 1024) (.inl ⟨_, rfl⟩) (.inr (.inr ⟨le_rfl, le_rfl⟩))

/-! ### The law of delays -/

/-- Each delay is a number from zero to the cap, or its computation overflows. The first delays are capped,
and so is every one whose power and factors are numbers of the format; without floats all delays are exactly
the smaller one of the product and the cap. With floats a delay beyond the format overflows. A run fails
with failures of its calls and sleeps and with an overflow of a delay with attempts left, besides a limit
that has no text, and the overflow ends it as soon as that delay is reached. -/
theorem delays_capped (h : c.Denotes initial growth cap) :
    (∀ attempt, c.IsCapped cap attempt ∨ c.delay attempt = .error .overflow) ∧
    (∀ attempt ≤ 0, c.IsCapped cap attempt) ∧
    (∀ n : ℕ, n < 2 ^ 53 → initial < limit → growth ^ n < limit → c.IsCapped cap (n + 1)) ∧
    (¬c.UsesFloat → ∀ n : ℕ,
      ∃ wait, c.delay (n + 1) = .ok wait ∧ wait.Denotes (min (initial * growth ^ n) cap)) ∧
    (c.UsesFloat → ∀ n : ℕ, RetryConfig.IsLarge initial growth n →
      c.delay (n + 1) = .error .overflow) ∧
    ∀ m : ℤ, c.maxAttempts = .int m → ∀ (operation : String) (w : World ρ),
      (∀ outcomes : List (Result α),
        FailsOnly (Escapes c m w.interruptedSleep outcomes) (perform (run c operation outcomes) w).1) ∧
      (m.natAbs < Integer.textBound → w.interruptedSleep = none → ∀ front rest : List (Result α),
        (∀ o ∈ front, IsTransient o) → (front.length : ℤ) < m →
        (∀ i < front.length, c.IsCapped cap (i : ℕ)) →
        c.delay front.length = .error .overflow →
        (perform (run c operation (front ++ rest)) w).1 = .error (.fault .overflow)) :=
  ⟨h.capped_or_overflows, fun _ => h.isCapped_of_nonpos, fun _ => h.isCapped_of_lt,
    h.exists_delay_of_exact, fun hfloat _ => h.overflows hfloat, fun _ hlimit operation w =>
    ⟨fun outcomes => failsOnly_run hlimit h.maxDelay.isNumber operation outcomes w,
      fun hbound hsleep _ rest hfront hleft hcapped hoverflow =>
        run_overflows h hlimit hbound operation rest hfront hleft hcapped hoverflow hsleep⟩⟩

/-- Up to attempt 1024 the standard delays are capped, the next one overflows, and a run that comes so far
ends with the overflow. -/
theorem delays_capped_standard :
    (limited 1026).Denotes (7205759403792794 * 2 ^ (-56 : ℤ)) 2 60 ∧ (limited 1026).IsCapped 60 1024 ∧
      (limited 1026).delay 1025 = .error .overflow ∧
      (perform (run (limited 1026) "op" (losses ++ [.ok 1])) (World.start [] none : World Unit)).1 =
        .error (.fault .overflow) := by
  have h := denotes_limited 1026
  have hinitial := h.initialDelay.lt_limit ⟨_, rfl⟩
  have hgrowth : (2 : ℚ) ^ 1023 < limit := by exact_mod_cast Binary.pow_lt_limit
  obtain ⟨-, -, hcapped, -, hoverflows, hrun⟩ := @delays_capped Unit ℕ _ _ _ _ h
  refine ⟨h, hcapped 1023 (by omega) hinitial hgrowth,
    hoverflows (.inl ⟨_, rfl⟩) 1024 (.inr (.inr ⟨le_rfl, le_rfl⟩)), ?_⟩
  exact (hrun 1026 rfl "op" (World.start [] none)).2 (Integer.lt_textBound (by decide)) rfl losses [.ok 1]
    isTransient_of_mem_losses (by rw [length_losses]; decide) (isCapped_of_lt_losses 1026)
    (limited_overflows 1026)

/-- Not every delay is capped, and a run whose calls all fail with transient errors fails with none of
these. -/
theorem not_delays_capped :
    (¬∀ (c : RetryConfig) (initial growth cap : ℚ), c.Denotes initial growth cap →
        ∀ attempt, c.IsCapped cap attempt) ∧
      ¬∀ outcomes : List (Result ℕ), FailsOnly (fun f => .error f ∈ outcomes ∨ f = exhausted)
        (perform (run (limited 1026) "op" outcomes) (World.start [] none : World Unit)).1 := by
  constructor
  · intro hall
    obtain ⟨wait, y, hwait, -⟩ := hall _ _ _ _ (denotes_limited 1026) losses.length
    exact error_ne_ok ((limited_overflows 1026).symm.trans hwait)
  · intro hall
    have hrun := run_overflows (denotes_limited 1026) rfl (Integer.lt_textBound (by decide)) "op" []
      isTransient_of_mem_losses (by rw [length_losses]; decide) (isCapped_of_lt_losses 1026)
      (limited_overflows 1026) (w := (World.start [] none : World Unit)) rfl
    rw [List.append_nil] at hrun
    rcases hall losses _ hrun with hmem | hexhausted
    · have hlost := List.eq_of_mem_replicate hmem
      cases hlost
    · cases hexhausted

end

end Retry

end LedgerClient
