import LedgerClient.Proofs.Confirmation
import Mathlib.Data.Nat.Find

/-!
# Waitings on a script

A script says what each query for the status gives, and one of the sleeps may be interrupted. A waiting
asks until the status is final, a query fails or a sleep is interrupted, at most as often as its limit
allows, and sleeps once between two queries. A limit without a text is left out of this law: the first
record shows the limit, so the first status becomes a fault.
-/

namespace LedgerClient

def Event.isFetch : Event → Bool
  | .fetch _ => true
  | _ => false

namespace Confirmation

open LedgerClient.Action

/-! ## Scripts -/

/-- What the query behind so many others gives; the status stays pending where the script is silent. -/
def outcome (script : List (Result TransactionStatus)) (i : Nat) : Result TransactionStatus :=
  (script[i]?).getD (.ok .pending)

theorem outcome_tail (script : List (Result TransactionStatus)) (i : Nat) :
    outcome script.tail i = outcome script (i + 1) := by
  rw [outcome, outcome, List.getElem?_tail]

theorem outcome_drop (script : List (Result TransactionStatus)) (i : Nat) :
    outcome (script.drop i) 0 = outcome script i := by
  rw [outcome, outcome, List.getElem?_drop, Nat.add_zero]

/-- The sleep with this number from here on is interrupted. -/
def Interrupts (w : World (Result TransactionStatus)) (i : Nat) : Prop :=
  w.interruptedSleep = some (w.sleeps + i)

/-- So many queries find the transaction pending, and no sleep behind one of them is interrupted. -/
structure StaysOpen (w : World (Result TransactionStatus)) (j : Nat) : Prop where
  pending : ∀ i < j, outcome w.answers i = .ok .pending
  undisturbed : ∀ i < j, ¬Interrupts w (i + 1)

variable {w : World (Result TransactionStatus)} {hash : Script} {n j : Nat} {pause : Value}

theorem StaysOpen.behind (h : StaysOpen w (j + 1)) {after : World (Result TransactionStatus)}
    (hanswers : after.answers = w.answers.tail) (hsleep : after.interruptedSleep = w.interruptedSleep)
    (hsleeps : after.sleeps = w.sleeps + 1) : StaysOpen after j where
  pending i hi := by
    rw [hanswers, outcome_tail]
    exact h.pending (i + 1) (Nat.succ_lt_succ hi)
  undisturbed i hi := by
    rw [Interrupts, hsleep, hsleeps, Nat.add_assoc, Nat.add_comm 1]
    exact h.undisturbed (i + 1) (Nat.succ_lt_succ hi)

/-- Up to some query a waiting stays open; unless that query says more than that the transaction is
pending, it is the last one or the sleep behind it is interrupted. -/
theorem exists_staysOpen (w : World (Result TransactionStatus)) (hpos : 1 ≤ n) :
    ∃ j < n, StaysOpen w j ∧
      (outcome w.answers j = .ok .pending → j + 1 < n → Interrupts w (j + 1)) := by
  classical
  have hstop : ∃ j, outcome w.answers j = .ok .pending → j + 1 < n → Interrupts w (j + 1) :=
    ⟨n, fun _ h => absurd h (by omega)⟩
  have hbefore : ∀ i < Nat.find hstop,
      outcome w.answers i = .ok .pending ∧ i + 1 < n ∧ ¬Interrupts w (i + 1) := by
    intro i hi
    have hgoes := Nat.find_min hstop hi
    push Not at hgoes
    exact hgoes
  refine ⟨Nat.find hstop, ?_, ⟨fun i hi => (hbefore i hi).1, fun i hi => (hbefore i hi).2.2⟩,
    Nat.find_spec hstop⟩
  rcases Nat.eq_zero_or_pos (Nat.find hstop) with hzero | hsome
  · omega
  · have hlast := (hbefore (Nat.find hstop - 1) (by omega)).2.1
    omega

/-! ## Rounds -/

theorem course_fetchScripted {answer : Result TransactionStatus} (h : outcome w.answers 0 = answer) :
    Course (fetchScripted hash.toValue) w answer [.fetch hash.toValue] w.answers.tail := by
  subst h
  obtain ⟨answers, events, sleeps, interruptedSleep, correlation, transport⟩ := w
  cases answers with
  | nil => exact ⟨[.fetch hash.toValue], _, rfl, rfl, rfl, rfl, rfl⟩
  | cons answer rest => cases answer <;> exact ⟨[.fetch hash.toValue], _, rfl, rfl, rfl, rfl, rfl⟩

theorem orderly_fetchScripted (hash : Value) : Orderly (fetchScripted hash) := by
  refine (orderly_emit rfl).bind fun _ => orderly_nextAnswer.bind fun answer => ?_
  cases answer with
  | none => exact orderly_pure _
  | some answer => exact orderly_ofResult answer

/-- Queries that find the transaction pending, each with the sleep behind it. -/
def pendingRounds (hash : Script) (pause : Value) (j : Nat) : List Event :=
  (List.replicate j [.fetch hash.toValue, .sleep pause]).flatten

theorem countP_isFetch_pendingRounds (hash : Script) (pause : Value) (j : Nat) :
    (pendingRounds hash pause j).countP Event.isFetch = j := by
  induction j with
  | zero => rfl
  | succ j ih =>
    show (Event.fetch _ :: Event.sleep pause :: pendingRounds hash pause j).countP _ = _
    rw [List.countP_cons_of_pos rfl, List.countP_cons_of_neg Bool.false_ne_true, ih]

namespace Watch

variable {operation : String} {done left : Nat} (hbound : n < Integer.textBound)
  (hdone : done + (left + 1) ≤ n) (hpending : outcome w.answers 0 = .ok .pending)

include hbound hdone hpending

/-- What follows a query that finds the transaction pending. -/
theorem course_poll_pending {r : Result (Option TransactionStatus)} {more : List Event}
    {rest : List (Result TransactionStatus)}
    (hrest : ∀ after : World (Result TransactionStatus), after.answers = w.answers.tail →
      after.interruptedSleep = w.interruptedSleep → after.sleeps = w.sleeps →
      Course (do
        if 0 < left then sleep pause
        (counted hash n pause operation).poll fetchScripted (done + 1) left) after r more rest) :
    Course ((counted hash n pause operation).poll fetchScripted done (left + 1)) w r
      (.fetch hash.toValue :: more) rest :=
  course_poll_behind hbound hdone (course_fetchScripted hpending) (orderly_fetchScripted _) rfl hrest

/-- The last attempt is followed by nothing. -/
theorem course_poll_last (hleft : left = 0) :
    Course ((counted hash n pause operation).poll fetchScripted done (left + 1)) w (.ok none)
      [.fetch hash.toValue] w.answers.tail := by
  subst hleft
  refine course_poll_pending hbound hdone hpending fun after hafter _ _ => ?_
  rw [← hafter]
  exact course_pure none after

/-- A sleep that is interrupted ends the waiting. -/
theorem course_poll_interrupted (hleft : 0 < left) (hhit : Interrupts w 1) :
    Course ((counted hash n pause operation).poll fetchScripted done (left + 1)) w
      (.error (.fault .cancelled)) [.fetch hash.toValue, .sleep pause] w.answers.tail := by
  refine course_poll_pending hbound hdone hpending fun after hafter hafterSleep hafterSleeps => ?_
  simp only [hleft, if_true]
  rw [← hafter]
  refine (course_sleep_of_interrupted pause ?_).bind_error _
  rw [hafterSleep, hafterSleeps]
  exact hhit

/-- Behind any other sleep the next attempt follows. -/
theorem course_poll_round (hleft : 0 < left) (hcalm : ¬Interrupts w 1)
    {r : Result (Option TransactionStatus)} {more : List Event}
    {rest : List (Result TransactionStatus)}
    (hrest : ∀ after : World (Result TransactionStatus), after.answers = w.answers.tail →
      after.interruptedSleep = w.interruptedSleep → after.sleeps = w.sleeps + 1 →
      Course ((counted hash n pause operation).poll fetchScripted (done + 1) left) after r more
        rest) :
    Course ((counted hash n pause operation).poll fetchScripted done (left + 1)) w r
      (.fetch hash.toValue :: .sleep pause :: more) rest := by
  refine course_poll_pending hbound hdone hpending fun after hafter hafterSleep hafterSleeps => ?_
  simp only [hleft, if_true]
  have hnot : after.interruptedSleep ≠ some (after.sleeps + 1) := by
    rw [hafterSleep, hafterSleeps]
    exact hcalm
  refine (course_sleep pause hnot).bind_orderly (orderly_sleep pause)
    fun woken hwoken hwokenSleep hwokenSleeps => ?_
  exact hrest woken (hwoken.trans hafter) (hwokenSleep.trans hafterSleep)
    (hwokenSleeps.trans (congrArg (· + 1) hafterSleeps))

omit hdone hpending in
/-- The rounds of a waiting that stays open, by induction on their number: each uses up an attempt, an
answer and a sleep. -/
theorem course_poll_open (hopen : StaysOpen w j) (hdone : done + (left + 1 + j) ≤ n)
    {r : Result (Option TransactionStatus)} {more : List Event}
    {rest : List (Result TransactionStatus)}
    (hrest : ∀ after : World (Result TransactionStatus), after.answers = w.answers.drop j →
      after.interruptedSleep = w.interruptedSleep → after.sleeps = w.sleeps + j →
      Course ((counted hash n pause operation).poll fetchScripted (done + j) (left + 1)) after r more
        rest) :
    Course ((counted hash n pause operation).poll fetchScripted done (left + 1 + j)) w r
      (pendingRounds hash pause j ++ more) rest := by
  induction j generalizing done w with
  | zero => exact hrest w rfl rfl rfl
  | succ j ih =>
    have hleft : 0 < left + 1 + j := by omega
    have hrest' : done + 1 + (left + 1 + j) ≤ n := by omega
    refine course_poll_round hbound hdone (hopen.pending 0 (Nat.succ_pos j)) hleft
      (hopen.undisturbed 0 (Nat.succ_pos j)) fun after hafter hafterSleep hafterSleeps => ?_
    refine ih (hopen.behind hafter hafterSleep hafterSleeps) hrest' fun last hlast hlastSleep
      hlastSleeps => ?_
    rw [Nat.add_assoc, Nat.add_comm 1]
    refine hrest last ?_ (hlastSleep.trans hafterSleep) ?_
    · rw [hlast, hafter, List.drop_tail]
    · rw [hlastSleeps, hafterSleeps, Nat.add_assoc, Nat.add_comm 1]

end Watch

/-! ## The whole waiting -/

/-- A failure with an error that shows a value, if the value has a text. -/
inductive FailsShowing (v : Value) (e : String → ClientError) : Result TransactionStatus → Prop where
  | shown {text : String} (h : v.display = .ok text) : FailsShowing v e (.error (.client (e text)))
  | unshown {f : Fault} (h : v.display = .error f) : FailsShowing v e (.error (.fault f))

theorem exists_failsShowing (v : Value) (e : String → ClientError) : ∃ r, FailsShowing v e r := by
  cases h : v.display with
  | ok text => exact ⟨_, .shown h⟩
  | error f => exact ⟨_, .unshown h⟩

theorem FailsShowing.exists_failure {v : Value} {e : String → ClientError}
    {r : Result TransactionStatus} (h : FailsShowing v e r) :
    ∃ f, r = .error f ∧ ∀ α : Type, (Result.failDisplaying v e : Result α) = .error f := by
  unfold Result.failDisplaying
  cases h with
  | @shown text h =>
    rw [h]
    exact ⟨.client (e text), rfl, fun _ => rfl⟩
  | @unshown f h =>
    rw [h]
    exact ⟨.fault f, rfl, fun _ => rfl⟩

/-- The error of a waiting whose attempts are used up, with a text for its pause. -/
def timeout (hash : Script) (n : Nat) (pause : Value) (shown : String) : ClientError :=
  .confirmationTimeout hash.toValue (.int n) pause
    ("Transaction " ++ hash.mended ++ " not final after " ++ Integer.decimal n ++ " attempts (" ++ shown ++
      "s interval)")

theorem FailsShowing.expired_eq {r : Result TransactionStatus} (hbound : n < Integer.textBound)
    (h : FailsShowing pause (timeout hash n pause) r) : expired hash n pause = r := by
  have hcount : (Value.int n).display = .ok (Integer.decimal n) := Value.integerText_of_lt hbound
  obtain ⟨f, rfl, hfails⟩ := h.exists_failure
  rw [← hfails, expired, ClientError.notConfirmed, Script.display_toValue, hcount]
  show (do let e ← Result.ofFault (do let shown ← pause.display; .ok (timeout hash n pause shown)); _) =
    _
  unfold Result.failDisplaying
  cases pause.display <;> rfl

/-- How the rounds of a waiting end: the number of queries, the result and the activity. -/
inductive Ends (w : World (Result TransactionStatus)) (hash : Script) (n : Nat) (pause : Value) :
    Nat → Result TransactionStatus → List Event → Prop where
  /-- A query fails. -/
  | failed {j : Nat} {f : Failure} (hj : j < n) (hshown : j = 0 ∨ n < Integer.textBound)
      (hopen : StaysOpen w j) (hlast : outcome w.answers j = .error f) :
      Ends w hash n pause (j + 1) (.error f) (pendingRounds hash pause j ++ [.fetch hash.toValue])
  /-- A query gives a final status. -/
  | final {j : Nat} {s : TransactionStatus} (hj : j < n) (hshown : n < Integer.textBound)
      (hopen : StaysOpen w j) (hlast : outcome w.answers j = .ok s) (hfinal : s ≠ .pending) :
      Ends w hash n pause (j + 1) (.ok s) (pendingRounds hash pause j ++ [.fetch hash.toValue])
  /-- The sleep before the next query is interrupted. -/
  | interrupted {j : Nat} (hj : j + 1 < n) (hshown : n < Integer.textBound) (hopen : StaysOpen w j)
      (hlast : outcome w.answers j = .ok .pending) (hhit : Interrupts w (j + 1)) :
      Ends w hash n pause (j + 1) (.error (.fault .cancelled))
        (pendingRounds hash pause j ++ [.fetch hash.toValue, .sleep pause])
  /-- Every attempt finds the transaction pending. -/
  | expired {j : Nat} {r : Result TransactionStatus} (hj : j + 1 = n) (hshown : n < Integer.textBound)
      (hopen : StaysOpen w j) (hlast : outcome w.answers j = .ok .pending)
      (hr : FailsShowing pause (timeout hash n pause) r) :
      Ends w hash n pause (j + 1) r (pendingRounds hash pause j ++ [.fetch hash.toValue])
  /-- The limit has no text, so no record can be written about the first status. -/
  | unrecorded {s : TransactionStatus} (hn : Integer.textBound ≤ n)
      (hfirst : outcome w.answers 0 = .ok s) :
      Ends w hash n pause 1 (.error (.fault .badValue)) [.fetch hash.toValue]

/-- How a waiting settles: as its rounds end, or without a query when its limits are refused. -/
inductive Settles (w : World (Result TransactionStatus)) (hash : Script) (m : Int) (pause : Value) :
    Nat → Result TransactionStatus → List Event → Prop where
  | tooFew {r : Result TransactionStatus} (hm : m < 1)
      (hr : FailsShowing (.int m) (fun shown => .invalidConfig "max_attempts" (.below 1 shown)) r) :
      Settles w hash m pause 0 r []
  | negative {r : Result TransactionStatus} (hm : 1 ≤ m) (hpause : pause.isBelow 0 = .ok true)
      (hr : FailsShowing pause (fun shown => .invalidConfig "interval" (.below 0 shown)) r) :
      Settles w hash m pause 0 r []
  | ends {n k : Nat} {r : Result TransactionStatus} {acts : List Event} (hm : m = n) (hn : 1 ≤ n)
      (hpause : pause.isBelow 0 = .ok false) (h : Ends w hash n pause k r acts) :
      Settles w hash m pause k r acts

variable {m : Int} {r : Result TransactionStatus} {acts : List Event} {k : Nat}

theorem Ends.countP_isFetch (h : Ends w hash n pause k r acts) : acts.countP Event.isFetch = k := by
  cases h with
  | unrecorded => rfl
  | _ => rw [List.countP_append, countP_isFetch_pendingRounds]; rfl

theorem Ends.le (h : Ends w hash n pause k r acts) : k ≤ n := by
  cases h with
  | failed hj => exact hj
  | final hj => exact hj
  | interrupted hj => exact Nat.le_of_lt hj
  | expired hj => exact Nat.le_of_eq hj
  | unrecorded hn => exact Nat.le_trans (Integer.lt_textBound (by decide)) hn

theorem Settles.countP_isFetch (h : Settles w hash m pause k r acts) :
    acts.countP Event.isFetch = k := by
  cases h with
  | tooFew => rfl
  | negative => rfl
  | ends _ _ _ h => exact h.countP_isFetch

theorem Settles.le (h : Settles w hash m pause k r acts) : (k : Int) ≤ max 0 m := by
  cases h with
  | tooFew => exact Int.le_max_left 0 m
  | negative => exact Int.le_max_left 0 m
  | ends hm _ _ h =>
    have hle := h.le
    omega

theorem StaysOpen.zero (w : World (Result TransactionStatus)) : StaysOpen w 0 :=
  ⟨fun i hi => absurd hi (Nat.not_lt_zero i), fun i hi => absurd hi (Nat.not_lt_zero i)⟩

theorem exists_ends (w : World (Result TransactionStatus)) (hash : Script) (pause : Value)
    (hn : 1 ≤ n) : ∃ k r acts, Ends w hash n pause k r acts := by
  rcases Nat.lt_or_ge n Integer.textBound with hshown | hendless
  · obtain ⟨j, hj, hopen, hstop⟩ := exists_staysOpen w hn
    cases hlast : outcome w.answers j with
    | error f => exact ⟨_, _, _, .failed hj (.inr hshown) hopen hlast⟩
    | ok s =>
      by_cases hfinal : s = .pending
      · subst hfinal
        rcases Nat.lt_or_ge (j + 1) n with hleft | hused
        · exact ⟨_, _, _, .interrupted hleft hshown hopen hlast (hstop hlast hleft)⟩
        · obtain ⟨r, hr⟩ := exists_failsShowing pause (timeout hash n pause)
          exact ⟨_, _, _, .expired (by omega) hshown hopen hlast hr⟩
      · exact ⟨_, _, _, .final hj hshown hopen hlast hfinal⟩
  · cases hfirst : outcome w.answers 0 with
    | error f => exact ⟨_, _, _, .failed hn (.inl rfl) (.zero w) hfirst⟩
    | ok s => exact ⟨_, _, _, .unrecorded hendless hfirst⟩

/-- Every waiting settles, if its pause can be compared with zero. -/
theorem exists_settles (w : World (Result TransactionStatus)) (hash : Script) (m : Int) {below : Bool}
    (hpause : pause.isBelow 0 = .ok below) : ∃ k r acts, Settles w hash m pause k r acts := by
  by_cases hfew : m < 1
  · obtain ⟨r, hr⟩ := exists_failsShowing (.int m) fun shown =>
      .invalidConfig "max_attempts" (.below 1 shown)
    exact ⟨0, r, [], .tooFew hfew hr⟩
  have hpos : 1 ≤ m := Int.not_lt.mp hfew
  cases below with
  | true =>
    obtain ⟨r, hr⟩ := exists_failsShowing pause fun shown => .invalidConfig "interval" (.below 0 shown)
    exact ⟨0, r, [], .negative hpos hpause hr⟩
  | false =>
    lift m to Nat using by omega
    have hn : 1 ≤ m := Int.ofNat_le.mp hpos
    obtain ⟨k, r, acts, hends⟩ := exists_ends w hash pause hn
    exact ⟨k, r, acts, .ends rfl hn hpause hends⟩

/-- A waiting that stays open up to some query ends as its rounds do from there on. -/
theorem course_await_of_staysOpen (hj : j < n) (hpause : pause.isBelow 0 = .ok false)
    (hshown : n < Integer.textBound) (hopen : StaysOpen w j)
    (final : Result (Option TransactionStatus))
    (hlast : ∀ left operation (after : World (Result TransactionStatus)), left + 1 + j = n →
      outcome after.answers 0 = outcome w.answers j → (Interrupts after 1 ↔ Interrupts w (j + 1)) →
      Course ((Watch.counted hash n pause operation).poll fetchScripted j (left + 1)) after final acts
        after.answers.tail) :
    Course (await fetchScripted hash.toValue (.int n) pause) w
      (final >>= concluded (expired hash n pause)) (pendingRounds hash pause j ++ acts)
      (w.answers.drop (j + 1)) := by
  obtain ⟨left, rfl⟩ : ∃ left, n = left + 1 + j := ⟨n - (j + 1), by omega⟩
  refine course_await_of_rounds (orderly_fetchScripted _) (by omega) hpause fun operation =>
    course_rounds hshown operation ?_
  have hstart : StaysOpen { w with correlation := w.correlation.makeAndEnter (some "poll") } j :=
    ⟨hopen.pending, hopen.undisturbed⟩
  refine Watch.course_poll_open hshown hstart (Nat.le_of_eq (Nat.zero_add _))
    fun after hanswers hsleep hsleeps => ?_
  rw [Nat.zero_add, ← List.drop_drop, List.drop_one, ← hanswers]
  refine hlast left operation after rfl ?_ ?_
  · rw [hanswers]
    exact outcome_drop w.answers j
  · rw [Interrupts, hsleep, hsleeps, Nat.add_assoc]
    rfl

/-- The rounds end as they should. -/
theorem Ends.course (hpause : pause.isBelow 0 = .ok false) (h : Ends w hash n pause k r acts) :
    Course (await fetchScripted hash.toValue (.int n) pause) w r acts (w.answers.drop k) := by
  cases h with
  | @failed j f hj hshown hopen hlast =>
    rcases hshown with rfl | hshown
    -- The first query needs no record, so here the limit may be one without a text.
    · obtain ⟨left, rfl⟩ : ∃ left, n = left + 1 := ⟨n - 1, by omega⟩
      rw [List.drop_one]
      refine course_await_of_rounds (r := .error f) (orderly_fetchScripted _) hj hpause
        fun operation => Course.bind_error _ ?_
      exact Watch.course_poll_of_error (course_fetchScripted hlast)
    · exact course_await_of_staysOpen hj hpause hshown hopen (.error f)
        fun left operation after _ hafter _ =>
          Watch.course_poll_of_error (course_fetchScripted (hafter.trans hlast))
  | @final j s hj hshown hopen hlast hfinal =>
    exact course_await_of_staysOpen hj hpause hshown hopen (.ok (some s))
      fun left operation after hleft hafter _ =>
        Watch.course_poll_of_final hshown (by omega) (course_fetchScripted (hafter.trans hlast))
          (s.isTerminal_iff.mpr hfinal)
  | @interrupted j hj hshown hopen hlast hhit =>
    exact course_await_of_staysOpen (by omega) hpause hshown hopen (.error (.fault .cancelled))
      fun left operation after hleft hafter hinterrupts =>
        Watch.course_poll_interrupted hshown (by omega) (hafter.trans hlast) (by omega)
          (hinterrupts.mpr hhit)
  | @expired j r hj hshown hopen hlast hr =>
    rw [← hr.expired_eq hshown]
    exact course_await_of_staysOpen (by omega) hpause hshown hopen (.ok none)
      fun left operation after hleft hafter _ =>
        Watch.course_poll_last hshown (by omega) (hafter.trans hlast) (by omega)
  | @unrecorded s hn hfirst =>
    have hpos : 1 ≤ n := Nat.le_trans (Integer.lt_textBound (by decide)) hn
    rw [List.drop_one]
    exact course_await_of_rounds (r := .error (.fault .badValue)) (orderly_fetchScripted _) hpos hpause
      fun operation =>
      course_rounds_of_endless hn operation (course_fetchScripted hfirst)

theorem checkLimits_of_tooFew (hm : m < 1) (pause : Value) : checkLimits (.int m) pause =
    Result.failDisplaying (.int m) fun shown => .invalidConfig "max_attempts" (.below 1 shown) := by
  have hbelow : (Value.int m).isBelow (1 : Nat) = .ok true := by
    rw [Value.isBelow_eq, decide_eq_true (by exact_mod_cast hm)]
  show (do if ← Result.ofFault ((Value.int m).isBelow (1 : Nat)) then _ else _) = _
  rw [hbelow]
  rfl

theorem checkLimits_of_negative (hm : 1 ≤ m) (hpause : pause.isBelow 0 = .ok true) :
    checkLimits (.int m) pause =
      Result.failDisplaying pause fun shown => .invalidConfig "interval" (.below 0 shown) := by
  lift m to Nat using by omega
  rw [checkLimits, isBelow_nat hm, hpause]
  rfl

theorem course_await_of_refused {attempts : Value} {e : String → ClientError} {v : Value}
    (hlimits : checkLimits attempts pause = Result.failDisplaying v e) (hr : FailsShowing v e r) :
    Course (await fetchScripted hash.toValue attempts pause) w r [] w.answers := by
  obtain ⟨f, rfl, hfails⟩ := hr.exists_failure
  unfold await
  rw [hlimits, hfails]
  exact (course_throw f w).bind_error _

/-- What settles a waiting is what it does. -/
theorem Settles.course (h : Settles w hash m pause k r acts) :
    Course (await fetchScripted hash.toValue (.int m) pause) w r acts (w.answers.drop k) := by
  cases h with
  | tooFew hm hr => exact course_await_of_refused (checkLimits_of_tooFew hm pause) hr
  | negative hm hpause hr => exact course_await_of_refused (checkLimits_of_negative hm hpause) hr
  | ends hm hn hpause h =>
    subst hm
    exact h.course hpause

/-- A waiting settles in one way: as long as queries find the transaction pending and sleeps are not
interrupted it asks again, up to its limit; then the status, the failure of the query or of the sleep, or
the error of the used up limit is its result. A limit without a text makes a fault of the first status.
However it ends, the id in force is the one from before. -/
theorem await_settles (hash : Script) (m : Int) {pause : Value} {below : Bool}
    (hpause : pause.isBelow 0 = .ok below) (w : World (Result TransactionStatus)) :
    (∃ k r acts, Settles w hash m pause k r acts) ∧
    (∀ k r acts, Settles w hash m pause k r acts →
      Course (await fetchScripted hash.toValue (.int m) pause) w r acts (w.answers.drop k) ∧
      acts.countP Event.isFetch = k ∧ (k : Int) ≤ max 0 m) ∧
    (perform (await fetchScripted hash.toValue (.int m) pause) w).2.correlation.current =
      w.correlation.current := by
  refine ⟨exists_settles w hash m hpause,
    fun k r acts h => ⟨h.course, h.countP_isFetch, h.le⟩, ?_⟩
  obtain ⟨es, hextends⟩ := orderly_await (orderly_fetchScripted hash.toValue) (.int m) pause w
  exact hextends.current

/-- The second of two sleeps is interrupted. -/
theorem await_interrupted :
    Course (await fetchScripted (.text "0xab") (.int 3) (.int 1)) (.start [] (some 2))
      (.error (.fault .cancelled)) [.fetch (.text "0xab"), .sleep (.int 1), .fetch (.text "0xab"),
        .sleep (.int 1)] [] ∧
    (perform (await fetchScripted (.text "0xab") (.int 3) (.int 1))
      (.start [] (some 2))).2.correlation.current = none := by
  have hpause : (Value.int 1).isBelow 0 = .ok false := isBelow_nat (by decide)
  obtain ⟨-, hsettles, hcurrent⟩ := await_settles "0xab" 3 hpause (.start [] (some 2))
  have hopen : StaysOpen (.start [] (some 2)) 1 := by
    refine ⟨fun i _ => rfl, fun i hi h => ?_⟩
    obtain rfl : i = 0 := by omega
    cases h
  have hbound : 3 < Integer.textBound := Integer.lt_textBound (by decide)
  refine ⟨(hsettles 2 _ _ (.ends rfl (by decide) hpause ?_)).1, hcurrent⟩
  exact .interrupted (by decide) hbound hopen rfl rfl

/-- A limit without a text: below zero it is refused with a fault instead of an error about it, and above
a status that is final from the start does not come back. -/
theorem await_endless :
    Course (await fetchScripted (.text "0xab") (.int (-Integer.textBound)) (.int 1)) (.start [] none)
      (.error (.fault .badValue)) [] [] ∧
    Course (await fetchScripted (.text "0xab") (.int Integer.textBound) (.int 1))
      (.start [.ok .confirmed] none) (.error (.fault .badValue)) [.fetch (.text "0xab")] [] := by
  have hpause : (Value.int 1).isBelow 0 = .ok false := isBelow_nat (by decide)
  have hpos : 1 < Integer.textBound := Integer.lt_textBound (by decide)
  constructor
  · have hdisplay : (Value.int (-Integer.textBound)).display = .error .badValue :=
      Value.integerText_of_le (by rw [Int.natAbs_neg, Int.natAbs_natCast])
    have hsettles : Settles (.start [] none) "0xab" (-Integer.textBound) (.int 1) 0 _ [] :=
      .tooFew (by omega) (.unshown hdisplay)
    exact hsettles.course
  · have hsettles : Settles (.start [.ok .confirmed] none) "0xab" Integer.textBound (.int 1) 1 _ _ :=
      .ends rfl (Nat.le_of_lt hpos) hpause (.unrecorded Nat.le.refl rfl)
    exact hsettles.course

end Confirmation

end LedgerClient
