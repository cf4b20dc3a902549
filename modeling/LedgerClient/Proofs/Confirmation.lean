import LedgerClient.Confirmation
import LedgerClient.Proofs.Number.Integer
import LedgerClient.Proofs.Trace.Orderly
import LedgerClient.Proofs.Value.Order

/-!
# The course of a waiting

One round of a waiting asks for the status. A failure ends the waiting, a final status is its result,
and after any other status there is a pause if attempts are left. What is written about a round
succeeds as long as the number of attempts has a text.
-/

namespace LedgerClient.Confirmation

open LedgerClient.Action

variable {ρ : Type} {fetch : Value → Action ρ TransactionStatus} {hash : Script} {n : Nat}
  {pause : Value}

namespace Watch

/-- A waiting whose limit is a number. -/
def counted (hash : Script) (n : Nat) (pause : Value) (operation : String) : Watch :=
  ⟨hash.toValue, .int n, pause, operation⟩

/-- Writing about an attempt does not show in the activity. -/
theorem course_note {attempt : Nat} (hattempt : attempt ≤ n) (hbound : n < Integer.textBound)
    (operation : String) (level : Int) (outcome : String) (w : World ρ) :
    Course ((counted hash n pause operation).note level (.int attempt) outcome) w (.ok ()) []
      w.answers := by
  obtain ⟨progress, hprogress⟩ :=
    exists_progressText (a := attempt) (m := n) (Nat.lt_of_le_of_lt hattempt hbound) hbound
  rw [note, counted, Script.display_toValue]
  exact (course_pure hash.mended w).bind_quiet fun after => course_logAttempt _ _ _ _ _ hprogress after

theorem course_note_of_endless (hbound : Integer.textBound ≤ n) (operation : String) (level : Int)
    (attempt : Nat) (outcome : String) (w : World ρ) :
    Course ((counted hash n pause operation).note level (.int attempt) outcome) w
      (.error (.fault .badValue)) [] w.answers := by
  have hprogress : progressText (.int attempt) (.int n) = .error .badValue :=
    progressText_of_endless attempt hbound
  rw [note, counted, Script.display_toValue]
  exact (course_pure hash.mended w).bind_quiet fun after =>
    course_logAttempt_of_error _ _ _ _ _ hprogress after

/-! ## The scope of a waiting -/

section

variable {R : World ρ → World ρ → Prop} (hkept : Kept R)

include hkept

theorem within_note (w : Watch) (level : Int) (attempt : Value) (outcome : String) :
    Within R (w.note level attempt outcome) :=
  hkept.bind (hkept.ofResult (Result.ofFault w.hash.display)) fun _ => hkept.logAttempt _ _ _ _ _ _ _

/-- What the query keeps is kept by all rounds. -/
theorem within_poll {w : Watch} (hfetch : Within R (fetch w.hash)) (done left : Nat) :
    Within R (w.poll fetch done left) := by
  induction left generalizing done with
  | zero => exact hkept.pure none
  | succ left ih =>
    refine hkept.bind hfetch fun status => ?_
    split
    · exact hkept.bind (within_note hkept w _ _ _) fun _ => hkept.pure _
    · refine hkept.bind (within_note hkept w _ _ _) fun _ => ?_
      split
      · exact hkept.bind (hkept.sleep w.interval) fun _ => ih _
      · exact ih _

end

theorem orderly_note (w : Watch) (level : Int) (attempt : Value) (outcome : String) :
    Orderly (w.note level attempt outcome : Action ρ Unit) := within_note kept_extends w _ _ _

/-! ## One round -/

variable {operation : String} {done left : Nat} {w : World ρ} {acts : List Event} {rest : List ρ}

/-- A query that fails ends the waiting. -/
theorem course_poll_of_error {f : Failure} (h : Course (fetch hash.toValue) w (.error f) acts rest) :
    Course ((counted hash n pause operation).poll fetch done (left + 1)) w (.error f) acts rest :=
  h.bind_error _

/-- When the limit has no text, the first status ends the waiting with a fault. -/
theorem course_poll_of_endless (hbound : Integer.textBound ≤ n) {s : TransactionStatus}
    (h : Course (fetch hash.toValue) w (.ok s) acts rest) :
    Course ((counted hash n pause operation).poll fetch done (left + 1)) w
      (.error (.fault .badValue)) acts rest := by
  refine h.bind_quiet fun after => ?_
  cases s.isTerminal with
  | true =>
    simp only [if_true]
    exact (course_note_of_endless hbound operation 20 _ _ after).bind_error _
  | false =>
    simp only [Bool.false_eq_true, if_false]
    exact (course_note_of_endless hbound operation 10 _ _ after).bind_error _

section

variable {s : TransactionStatus} (hbound : n < Integer.textBound) (hdone : done + (left + 1) ≤ n)
  (h : Course (fetch hash.toValue) w (.ok s) acts rest)

include hbound hdone h

/-- A final status is the result. -/
theorem course_poll_of_final (hfinal : s.isTerminal = true) :
    Course ((counted hash n pause operation).poll fetch done (left + 1)) w (.ok (some s)) acts
      rest := by
  refine h.bind_quiet fun after => ?_
  simp only [hfinal, if_true]
  exact (course_note (by omega) hbound operation 20 _ after).bind_quiet fun told => course_pure _ told

/-- After any other status the rest of the waiting follows, in a world where the sleeps so far are
counted. -/
theorem course_poll_behind (horderly : Orderly (fetch hash.toValue)) (hpending : s.isTerminal = false)
    {r : Result (Option TransactionStatus)} {more : List Event} {script : List ρ}
    (hrest : ∀ after : World ρ, after.answers = rest → after.interruptedSleep = w.interruptedSleep →
      after.sleeps = w.sleeps + acts.countP Event.isSleep →
      Course (do
        if 0 < left then sleep pause
        (counted hash n pause operation).poll fetch (done + 1) left) after r more script) :
    Course ((counted hash n pause operation).poll fetch done (left + 1)) w r (acts ++ more)
      script := by
  refine h.bind_orderly horderly fun after hafter hafterSleep hafterSleeps => ?_
  simp only [hpending]
  rw [← List.nil_append more]
  refine (course_note (by omega) hbound operation 10 _ after).bind_orderly (orderly_note _ _ _ _)
    fun told htold htoldSleep htoldSleeps => ?_
  exact hrest told (htold.trans hafter) (htoldSleep.trans hafterSleep)
    (htoldSleeps.trans hafterSleeps)

/-- After any other status the waiting goes on with the attempts that are left, behind one pause. -/
theorem course_poll_of_pending (horderly : Orderly (fetch hash.toValue))
    (hpending : s.isTerminal = false) (hsleep : w.interruptedSleep = none)
    {r : Result (Option TransactionStatus)} {more : List Event} {script : List ρ}
    (hrest : ∀ after : World ρ, after.answers = rest → after.interruptedSleep = none →
      Course ((counted hash n pause operation).poll fetch (done + 1) left) after r more script) :
    Course ((counted hash n pause operation).poll fetch done (left + 1)) w r
      (acts ++ ((if 0 < left then [.sleep pause] else []) ++ more)) script := by
  refine course_poll_behind hbound hdone h horderly hpending fun told htold htoldSleep _ => ?_
  have hnone : told.interruptedSleep = none := htoldSleep.trans hsleep
  by_cases hleft : 0 < left
  · simp only [hleft, if_true]
    refine (course_sleep_of_none pause hnone).bind fun woken hwoken hwokenSleep => ?_
    exact hrest woken (hwoken.trans htold) (hwokenSleep.trans hnone)
  · simp only [hleft, if_false]
    exact hrest told htold hnone

end

end Watch

/-! ## The whole waiting -/

/-- All rounds, with the record that the attempts are used up. -/
def rounds (fetch : Value → Action ρ TransactionStatus) (w : Watch) (count : Nat) :
    Action ρ (Option TransactionStatus) := do
  match ← w.poll fetch 0 count with
  | some status => return some status
  | none =>
    let shown ← ofFault w.limit.display
    w.note 30 w.limit ("not final after " ++ shown ++ " attempts")
    return none

theorem course_rounds (hbound : n < Integer.textBound) (operation : String) {w : World ρ}
    {r : Result (Option TransactionStatus)} {acts : List Event} {rest : List ρ}
    (h : Course ((Watch.counted hash n pause operation).poll fetch 0 n) w r acts rest) :
    Course (rounds fetch (Watch.counted hash n pause operation) n) w r acts rest := by
  cases r with
  | error f => exact h.bind_error _
  | ok final =>
    refine h.bind_quiet fun after => ?_
    cases final with
    | some s => exact course_pure _ after
    | none =>
      have hshown : (Watch.counted hash n pause operation).limit.display =
          .ok (Integer.decimal n) := Value.integerText_of_lt hbound
      rw [hshown]
      refine (course_pure (Integer.decimal n) after).bind_quiet fun told => ?_
      exact (Watch.course_note Nat.le.refl hbound operation 30 _ told).bind_quiet
        fun noted => course_pure _ noted

/-- When the limit has no text, a waiting gives nothing but a fault once a status is known. -/
theorem course_rounds_of_endless (hbound : Integer.textBound ≤ n) (operation : String) {w : World ρ}
    {s : TransactionStatus} {acts : List Event} {rest : List ρ}
    (h : Course (fetch hash.toValue) w (.ok s) acts rest) :
    Course (rounds fetch (Watch.counted hash n pause operation) n) w (.error (.fault .badValue)) acts
      rest := by
  obtain ⟨left, rfl⟩ : ∃ left, n = left + 1 := by
    refine ⟨n - 1, (Nat.sub_add_cancel (Nat.le_trans ?_ hbound)).symm⟩
    exact Integer.lt_textBound (by decide)
  exact (Watch.course_poll_of_endless hbound h).bind_error _

/-- The status, or what a waiting gives whose attempts are used up. -/
def concluded (expired : Result TransactionStatus) :
    Option TransactionStatus → Result TransactionStatus
  | some s => .ok s
  | none => expired

/-- The error of a waiting whose attempts are used up. -/
def expired (hash : Script) (n : Nat) (pause : Value) : Result TransactionStatus := do
  let e ← Result.ofFault (ClientError.notConfirmed hash.toValue (.int n) pause)
  .fail e

theorem within_rounds {R : World ρ → World ρ → Prop} (hkept : Kept R) (w : Watch)
    (hfetch : Within R (fetch w.hash)) (count : Nat) : Within R (rounds fetch w count) :=
  hkept.bind (Watch.within_poll hkept hfetch 0 count) fun
    | some _ => hkept.pure _
    | none => hkept.bind (hkept.ofResult _) fun _ =>
      hkept.bind (Watch.within_note hkept _ _ _ _) fun _ => hkept.pure _

theorem within_await {R : World ρ → World ρ → Prop} (hkept : Kept R) {hash : Value}
    (hfetch : Within R (fetch hash)) (attempts interval : Value) :
    Within R (await fetch hash attempts interval) := by
  refine hkept.bind (hkept.ofResult _) fun _ => hkept.bind (hkept.ofResult _) fun operation =>
    hkept.bind (hkept.ofResult _) fun count =>
      hkept.bind (hkept.withScope _ (within_rounds hkept _ hfetch count)) fun
        | some status => hkept.pure status
        | none => hkept.bind (hkept.ofResult _) fun e => hkept.throw _

/-- However a waiting ends, the id from before is in force again. -/
theorem orderly_await (hfetch : Orderly (fetch hash.toValue)) (attempts interval : Value) :
    Orderly (await fetch hash.toValue attempts interval) :=
  within_await kept_extends hfetch attempts interval

theorem isBelow_nat {m : Int} (h : m ≤ n) : Value.isBelow (.int n) m = .ok false := by
  rw [Value.isBelow_eq, decide_eq_false (Int.not_lt.mpr h)]

theorem checkLimits_of_valid (hpos : 1 ≤ n) (hnonneg : pause.isBelow 0 = .ok false) :
    checkLimits (.int n) pause = .ok () := by
  rw [checkLimits, isBelow_nat (by omega), hnonneg]
  rfl

theorem exists_operationText (hash : Script) :
    ∃ operation, operationText hash.toValue = .ok operation := by
  cases hash with
  | whole s => exact ⟨_, rfl⟩
  | torn t =>
    rw [operationText, Script.toValue, firstTen]
    show ∃ operation, (do
      let shown ← (Script.ofGlyphs (t.glyphs.take 10)).toValue.display
      return "confirm(" ++ shown ++ ")" : Except Fault String) = .ok operation
    rw [Script.display_toValue]
    exact ⟨_, rfl⟩

/-- Behind the checks of its limits, the course of a waiting is that of its rounds in a new scope. -/
theorem course_await_of_rounds (horderly : Orderly (fetch hash.toValue)) (hpos : 1 ≤ n)
    (hnonneg : pause.isBelow 0 = .ok false) {w : World ρ} {r : Result (Option TransactionStatus)}
    {acts : List Event} {rest : List ρ}
    (h : ∀ operation, Course (rounds fetch (Watch.counted hash n pause operation) n)
      { w with correlation := w.correlation.makeAndEnter (some "poll") } r acts rest) :
    Course (await fetch hash.toValue (.int n) pause) w (r >>= concluded (expired hash n pause)) acts
      rest := by
  obtain ⟨operation, hoperation⟩ : ∃ operation, operationText hash.toValue = .ok operation :=
    exists_operationText hash
  unfold await
  rw [checkLimits_of_valid hpos hnonneg, hoperation]
  show Course (withScope _ (rounds fetch (Watch.counted hash n pause operation) n) >>= _) w _ _ _
  have hrounds : Orderly (rounds fetch (Watch.counted hash n pause operation) n) :=
    within_rounds kept_extends (Watch.counted hash n pause operation) horderly n
  have hscope := Course.withScope (some "poll") hrounds (h operation)
  cases r with
  | error f => exact hscope.bind_error _
  | ok final =>
    refine hscope.bind_quiet fun after => ?_
    cases final with
    | some s => exact course_pure s after
    | none =>
      show Course _ after (expired hash n pause) [] after.answers
      unfold expired
      cases ClientError.notConfirmed hash.toValue (.int n) pause with
      | error f => exact (course_throw (.fault f) after).bind_error _
      | ok e => exact (course_pure e after).bind_quiet fun told => course_throw (.client e) told

theorem course_await (horderly : Orderly (fetch hash.toValue)) (hpos : 1 ≤ n)
    (hnonneg : pause.isBelow 0 = .ok false) {w : World ρ} {r : Result (Option TransactionStatus)}
    {acts : List Event} {rest : List ρ}
    (h : ∀ operation (start : World ρ), start.answers = w.answers →
      start.interruptedSleep = w.interruptedSleep →
      Course (rounds fetch (Watch.counted hash n pause operation) n) start r acts rest) :
    Course (await fetch hash.toValue (.int n) pause) w (r >>= concluded (expired hash n pause)) acts
      rest :=
  course_await_of_rounds horderly hpos hnonneg fun operation => h operation _ rfl rfl

end LedgerClient.Confirmation
