import LedgerClient.Proofs.Number.Integer
import LedgerClient.Proofs.Trace.Course
import LedgerClient.Proofs.Value.Order
import LedgerClient.Retry
import Mathlib.Data.Nat.Find
import Mathlib.Order.Bounds.Basic

/-!
# The course of a retried operation

An operation is called until a call gives something else than a transient error, or until the attempts
are used up. Before each call but the first there is one sleep if the delay is positive, and the outcome
of the last call is the result. A limit on attempts without a text is left out of this law: the record
about an error shows the limit, so the first error becomes a fault.
-/

namespace LedgerClient

open LedgerClient.Action

def Event.isCall : Event → Bool
  | .call => true
  | _ => false

/-! ## Delays -/

namespace RetryConfig

variable {c : RetryConfig}

/-- The delay before another call, once so many have been made, can be compared with zero. -/
def HasDelay (c : RetryConfig) (made : Nat) : Prop :=
  ∃ wait b, c.delay made = .ok wait ∧ wait.isAbove 0 = .ok b

/-- The sleep before another call, once so many have been made. -/
def pause (c : RetryConfig) (made : Nat) : List Event :=
  match c.delay made with
  | .ok wait =>
    match wait.isAbove 0 with
    | .ok true => [.sleep wait]
    | _ => []
  | .error _ => []

/-- The activity of some calls in a row, once so many have been made. -/
def calls (c : RetryConfig) : Nat → Nat → List Event
  | _, 0 => []
  | made, count + 1 => c.pause made ++ .call :: c.calls (made + 1) count

theorem isAbove_zero : Value.isAbove (.float 0.0) 0 = .ok false := by
  have horder : Binary.compareInt? 0.0 0 = some .eq := by decide +kernel
  rw [Value.isAbove, Value.orderWith, horder]
  rfl

theorem hasDelay_zero : c.HasDelay 0 := ⟨.float 0.0, false, c.delay_first, isAbove_zero⟩

theorem pause_zero : c.pause 0 = [] := by
  have hdelay : c.delay (0 : Nat) = .ok (.float 0.0) := c.delay_first
  rw [pause, hdelay]
  simp only [isAbove_zero]

theorem calls_from_zero (c : RetryConfig) (count : Nat) :
    .call :: c.calls 1 count = c.calls 0 (count + 1) := by
  show _ = c.pause 0 ++ .call :: c.calls 1 count
  rw [pause_zero, List.nil_append]

theorem countP_pause (c : RetryConfig) (made : Nat) :
    (c.pause made).countP Event.isCall = 0 ∧ (c.pause made).countP Event.isSleep ≤ 1 := by
  unfold pause
  split
  · split
    · exact ⟨rfl, Nat.le.refl⟩
    · exact ⟨rfl, Nat.zero_le 1⟩
  · exact ⟨rfl, Nat.zero_le 1⟩

theorem countP_isCall_calls (c : RetryConfig) (made count : Nat) :
    (c.calls made count).countP Event.isCall = count := by
  induction count generalizing made with
  | zero => rfl
  | succ count ih =>
    rw [calls, List.countP_append, List.countP_cons, (c.countP_pause made).1, ih]
    exact Nat.zero_add _

theorem countP_isSleep_calls (c : RetryConfig) (made count : Nat) :
    (c.calls made count).countP Event.isSleep ≤ count := by
  induction count generalizing made with
  | zero => exact Nat.le.refl
  | succ count ih =>
    rw [calls, List.countP_append, List.countP_cons_of_neg (by simp [Event.isSleep])]
    have hpause := (c.countP_pause made).2
    have hrest := ih (made + 1)
    omega

/-- Below a cap that is a number every delay can be compared with zero. -/
theorem hasDelay_of_delay (hcap : c.maxDelay.IsNumber) {made : Nat} {wait : Value}
    (h : c.delay made = .ok wait) : c.HasDelay made := by
  obtain ⟨b, hb⟩ : ∃ b, wait.isAbove 0 = .ok b := by
    have hdelay := h
    unfold delay at hdelay
    split at hdelay
    · obtain rfl : Value.float 0.0 = wait := Except.ok.inj hdelay
      exact ⟨_, isAbove_zero⟩
    · obtain ⟨growth, -, hdelay⟩ := bind_eq_ok.mp hdelay
      obtain ⟨uncapped, -, hdelay⟩ := bind_eq_ok.mp hdelay
      exact Value.exists_isAbove_of_smaller hcap hdelay 0
  exact ⟨wait, b, h, hb⟩

end RetryConfig

namespace Retry

variable {ρ α : Type} {c : RetryConfig} {m : Int} {operation : String}

/-! ## One call -/

/-- Before a call there is at most a sleep. -/
theorem course_startAttempt {made : Nat} (h : c.HasDelay made) {w : World ρ}
    (hsleep : w.interruptedSleep = none) :
    Course (startAttempt c made) w (.ok ()) (c.pause made ++ [.call]) w.answers := by
  obtain ⟨wait, b, hdelay, habove⟩ := h
  unfold startAttempt RetryConfig.pause
  rw [hdelay]
  refine Course.after_leaves (leaves_pure wait) fun waited hwaited hwaitedSleep => ?_
  simp only [habove]
  refine Course.after_leaves (leaves_pure b) fun ready hready hreadySleep => ?_
  rw [← hwaited, ← hready]
  cases b with
  | true =>
    simp only [if_true]
    refine (course_sleep_of_none wait ((hreadySleep.trans hwaitedSleep).trans hsleep)).bind
      fun woken hwoken _ => ?_
    rw [← hwoken]
    exact ⟨[.call], _, rfl, rfl, rfl, rfl, rfl⟩
  | false =>
    exact ⟨[.call], _, rfl, rfl, rfl, rfl, rfl⟩

/-- A client error that is worth another attempt. -/
def IsTransient : Result α → Prop
  | .error (.client e) => e.isRetryable = true
  | _ => False

theorem isWorthwhile_eq (hlimit : c.maxAttempts = .int m) (made : Nat) (e : ClientError) :
    isWorthwhile c made e = .ok (e.isRetryable && decide ((made : Int) < m)) := by
  unfold isWorthwhile
  rw [RetryConfig.allows, hlimit, Value.isAbove_int]
  cases e.isRetryable <;> rfl

section

variable (hlimit : c.maxAttempts = .int m) (hbound : m.natAbs < Integer.textBound) {made : Nat}
  (hmade : made < Integer.textBound)

include hlimit hbound hmade

theorem course_note (level : Int) (text : String) (kind : Option String) (w : World ρ) :
    Course (note c operation made level text kind) w (.ok ()) [] w.answers := by
  obtain ⟨progress, hprogress⟩ := exists_progressText (a := made) hmade hbound
  unfold note
  rw [hlimit]
  exact course_logAttempt _ _ _ _ _ hprogress w

theorem course_noteSuccess (w : World ρ) :
    Course (noteSuccess c operation made) w (.ok ()) [] w.answers := by
  unfold noteSuccess
  split
  · exact course_note hlimit hbound hmade _ _ _ w
  · exact course_pure () w

theorem course_noteError (e : ClientError) (again : Bool) (w : World ρ) :
    Course (noteError c operation made e again) w (.ok ()) [] w.answers := by
  unfold noteError
  split
  · exact course_note hlimit hbound hmade _ _ _ w
  · exact course_note hlimit hbound hmade _ _ _ w

end

/-! ## Calls in a row -/

section

variable (hlimit : c.maxAttempts = .int m) (hbound : m.natAbs < Integer.textBound)

include hlimit hbound

/-- An outcome that is final, or for which no attempt is left, ends the run. -/
theorem course_last {made : Nat} (hmade : made + 1 < Integer.textBound) (hdelay : c.HasDelay made)
    {last : Result α} (hlast : ¬IsTransient last ∨ m ≤ made + 1) (rest : List (Result α))
    {w : World ρ} (hsleep : w.interruptedSleep = none) :
    Course (continueRun c operation made (last :: rest)) w last (c.pause made ++ [.call])
      w.answers := by
  refine (course_startAttempt hdelay hsleep).bind_quiet fun called => ?_
  match last with
  | .ok a =>
    exact (course_noteSuccess hlimit hbound hmade called).bind_quiet fun told => course_pure a told
  | .error (.fault f) => exact course_throw (.fault f) called
  | .error (.client e) =>
    have hagain : isWorthwhile c (made + 1) e = .ok false := by
      rw [isWorthwhile_eq hlimit, Bool.and_eq_false_iff.mpr]
      rcases hlast with h | h
      · exact .inl (Bool.eq_false_iff.mpr h)
      · refine .inr (decide_eq_false ?_)
        push_cast
        omega
    simp only [hagain]
    refine (course_pure false called).bind_quiet fun judged => ?_
    exact (course_noteError hlimit hbound hmade e false judged).bind_quiet
      fun told => course_throw (.client e) told

/-- After a transient error, with attempts left, the run goes on. -/
theorem course_again {made : Nat} (hmade : made + 1 < Integer.textBound) (hdelay : c.HasDelay made)
    {outcome : Result α} (htransient : IsTransient outcome) (hleft : made + 1 < m)
    {rest : List (Result α)} {w : World ρ} (hsleep : w.interruptedSleep = none) {r : Result α}
    {acts : List Event}
    (hrest : ∀ after : World ρ, after.interruptedSleep = none →
      Course (continueRun c operation (made + 1) rest) after r acts after.answers) :
    Course (continueRun c operation made (outcome :: rest)) w r (c.pause made ++ .call :: acts)
      w.answers := by
  match outcome, htransient with
  | .error (.client e), htransient =>
    have hagain : isWorthwhile c (made + 1) e = .ok true := by
      rw [isWorthwhile_eq hlimit, show e.isRetryable = true from htransient]
      refine congrArg Except.ok (decide_eq_true ?_)
      push_cast
      exact hleft
    rw [List.append_cons]
    refine (course_startAttempt hdelay hsleep).bind fun called hcalled hcalledSleep => ?_
    simp only [hagain]
    refine (course_pure true called).bind_silent fun judged hjudged hjudgedSleep => ?_
    refine (course_noteError hlimit hbound hmade e true judged).bind_silent
      fun told htold htoldSleep => ?_
    rw [← hcalled, ← hjudged, ← htold]
    exact hrest told (((htoldSleep.trans hjudgedSleep).trans hcalledSleep).trans hsleep)

/-- Transient errors are followed by further calls, up to the first outcome that ends the run. -/
theorem course_continueRun {last : Result α} (rest : List (Result α)) (front : List (Result α))
    {made : Nat} (hmade : made + front.length + 1 < Integer.textBound)
    (hdelay : ∀ i ≤ front.length, c.HasDelay (made + i)) (hfront : ∀ o ∈ front, IsTransient o)
    (hleft : front.length = 0 ∨ made + front.length < m)
    (hlast : ¬IsTransient last ∨ m ≤ made + front.length + 1) {w : World ρ}
    (hsleep : w.interruptedSleep = none) :
    Course (continueRun c operation made (front ++ last :: rest)) w last
      (c.calls made (front.length + 1)) w.answers := by
  induction front generalizing made w with
  | nil => exact course_last hlimit hbound hmade (hdelay 0 Nat.le.refl) hlast rest hsleep
  | cons outcome front ih =>
    rw [List.length_cons] at hmade hdelay hleft hlast ⊢
    have hfirst : c.HasDelay made := hdelay 0 (Nat.zero_le _)
    have hleft := hleft.resolve_left (Nat.succ_ne_zero _)
    push_cast at hleft hlast
    refine course_again hlimit hbound (by omega) hfirst (hfront outcome List.mem_cons_self)
      (by omega) hsleep fun after hafter => ?_
    refine ih (by omega) (fun i hi => ?_) (fun o ho => hfront o (List.mem_cons_of_mem _ ho))
      (.inr (by push_cast; omega)) ?_ hafter
    · rw [Nat.add_assoc, Nat.add_comm 1]
      exact hdelay (i + 1) (by omega)
    · push_cast
      exact hlast.imp_right fun h => by omega

end

/-! ## A whole run -/

/-- With this call a run is over: its outcome is final, or no attempt is left. -/
def EndsAt (script : Nat → Result α) (m : Int) (k : Nat) : Prop :=
  1 ≤ k ∧ (¬IsTransient (script (k - 1)) ∨ m ≤ k)

theorem exists_isLeast_endsAt (script : Nat → Result α) (m : Int) :
    ∃ k, IsLeast {k | EndsAt script m k} k := by
  classical
  have hends : ∃ k, EndsAt script m k := ⟨max 1 m.toNat, by omega, .inr (by omega)⟩
  exact ⟨Nat.find hends, Nat.find_spec hends, fun k hk => Nat.find_min' hends hk⟩

/-- Before the last call every outcome is transient, and attempts are left. -/
theorem of_lt_isLeast {script : Nat → Result α} {k : Nat} (hk : IsLeast {k | EndsAt script m k} k)
    {i : Nat} (hi : i + 1 < k) : IsTransient (script i) ∧ (i + 1 : Nat) < m := by
  have hnot : ¬EndsAt script m (i + 1) := fun h => absurd (hk.2 h) (Nat.not_le.mpr hi)
  unfold EndsAt at hnot
  rw [Nat.add_sub_cancel] at hnot
  constructor
  · by_contra hlast
    exact hnot ⟨Nat.succ_pos i, .inl hlast⟩
  · by_contra hused
    exact hnot ⟨Nat.succ_pos i, .inr (Int.not_lt.mp hused)⟩

theorem le_of_isLeast {script : Nat → Result α} {last : Nat}
    (hk : IsLeast {k | EndsAt script m k} (last + 1)) : last = 0 ∨ (last : Int) < m := by
  cases last with
  | zero => exact .inl rfl
  | succ i => exact .inr (of_lt_isLeast hk (Nat.lt_succ_self _)).2

theorem exists_map_range {β : Type} (f : Nat → β) {k n : Nat} (h : k < n) :
    ∃ rest, (List.range n).map f = (List.range k).map f ++ f k :: rest := by
  refine ⟨((List.range n).map f).drop (k + 1), ?_⟩
  have hlen : k < ((List.range n).map f).length := by simpa using h
  have htake : ((List.range n).map f).take k = (List.range k).map f := by
    rw [← List.map_take, List.take_range, Nat.min_eq_left (Nat.le_of_lt h)]
  have hdrop := List.drop_eq_getElem_cons hlen
  rw [List.getElem_map, List.getElem_range] at hdrop
  rw [← htake, ← hdrop, List.take_append_drop]

/-- The run up to its last call. -/
theorem course_run (hlimit : c.maxAttempts = .int m) (hbound : m.natAbs < Integer.textBound)
    (hcap : c.maxDelay.IsNumber)
    (hdelay : ∀ i : Nat, 1 ≤ i → (i : Int) < m → ∃ wait, c.delay i = .ok wait)
    {script : Nat → Result α} {last : Nat} (hk : IsLeast {k | EndsAt script m k} (last + 1))
    {n : Nat} (hn : last < n) {w : World ρ} (hsleep : w.interruptedSleep = none) :
    Course (run c operation ((List.range n).map script)) w (script last) (.call :: c.calls 1 last)
      w.answers := by
  have hpos : 1 < Integer.textBound := Integer.lt_textBound (by decide)
  have hleft := le_of_isLeast hk
  have hlength : ((List.range last).map script).length = last := by
    rw [List.length_map, List.length_range]
  obtain ⟨rest, hrest⟩ := exists_map_range script hn
  rw [hrest, RetryConfig.calls_from_zero]
  rw [show c.calls 0 (last + 1) = c.calls 0 (((List.range last).map script).length + 1) by rw [hlength]]
  refine course_continueRun hlimit hbound rest ((List.range last).map script)
    (by rw [hlength]; omega) (fun i hi => ?_) (fun o ho => ?_) (by rw [hlength]; omega) ?_ hsleep
  · rw [Nat.zero_add]
    rcases Nat.eq_zero_or_pos i with h | h
    · rw [h]
      exact RetryConfig.hasDelay_zero
    · obtain ⟨wait, hwait⟩ := hdelay i h (by omega)
      exact RetryConfig.hasDelay_of_delay hcap hwait
  · obtain ⟨i, hi, rfl⟩ := List.mem_map.mp ho
    exact (of_lt_isLeast hk (Nat.succ_lt_succ (List.mem_range.mp hi))).1
  · rw [hlength]
    exact hk.1.2.imp_right fun h => by push_cast at h ⊢; omega

/-- What a run gives when no record about an error can be written. -/
def unrecorded : Result α → Result α
  | .error (.client _) => .error (.fault .badValue)
  | r => r

/-- When the limit has no text, the first outcome ends the run, an error with a fault. -/
theorem course_run_of_endless (hlimit : c.maxAttempts = .int m)
    (hbound : Integer.textBound ≤ m.natAbs) (outcome : Result α) (rest : List (Result α))
    {w : World ρ} (hsleep : w.interruptedSleep = none) :
    Course (run c operation (outcome :: rest)) w (unrecorded outcome) [.call] w.answers := by
  have hstart := course_startAttempt (RetryConfig.hasDelay_zero (c := c)) hsleep
  rw [RetryConfig.pause_zero, List.nil_append] at hstart
  refine hstart.bind_quiet fun called => ?_
  have hnote : ∀ level text kind (w : World ρ),
      Course (note c operation 1 level text kind) w (.error (.fault .badValue)) [] w.answers := by
    intro level text kind w
    unfold note
    rw [hlimit]
    exact course_logAttempt_of_error _ _ _ _ _ (progressText_of_endless 1 hbound) w
  match outcome with
  | .ok a => exact (course_pure () called).bind_quiet fun told => course_pure a told
  | .error (.fault f) => exact course_throw (.fault f) called
  | .error (.client e) =>
    simp only [isWorthwhile_eq hlimit]
    refine (course_pure _ called).bind_quiet fun judged => Course.bind_error _ ?_
    unfold noteError
    split
    · exact hnote _ _ _ judged
    · exact hnote _ _ _ judged

/-- A run calls the operation up to the first outcome that is no transient error, or until the attempts
are used up, behind the first call with a sleep for each positive delay, and gives the outcome of the
last call. A limit without a text makes a fault of an error at the first call. -/
theorem run_settles (hlimit : c.maxAttempts = .int m) (hcap : c.maxDelay.IsNumber)
    (hdelay : ∀ i : Nat, 1 ≤ i → (i : Int) < m → ∃ wait, c.delay i = .ok wait) (operation : String)
    (script : Nat → Result α) {w : World ρ} (hsleep : w.interruptedSleep = none) :
    (m.natAbs < Integer.textBound → ∃ k, IsLeast {k | EndsAt script m k} k ∧
      (∀ n, k ≤ n → Course (run c operation ((List.range n).map script)) w (script (k - 1))
        (.call :: c.calls 1 (k - 1)) w.answers) ∧
      (∀ i, i + 1 < k → IsTransient (script i)) ∧ (k : Int) ≤ max 1 m ∧
      (c.calls 1 (k - 1)).countP Event.isCall = k - 1 ∧
      (c.calls 1 (k - 1)).countP Event.isSleep ≤ k - 1) ∧
    (Integer.textBound ≤ m.natAbs → ∀ n, 1 ≤ n →
      Course (run c operation ((List.range n).map script)) w (unrecorded (script 0)) [.call]
        w.answers) := by
  constructor
  · intro hbound
    obtain ⟨k, hk⟩ := exists_isLeast_endsAt script m
    obtain ⟨last, rfl⟩ : ∃ last, k = last + 1 := ⟨k - 1, by have := hk.1.1; omega⟩
    have hleft := le_of_isLeast hk
    exact ⟨last + 1, hk, fun n hn => course_run hlimit hbound hcap hdelay hk hn hsleep,
      fun i hi => (of_lt_isLeast hk hi).1, by omega, c.countP_isCall_calls 1 last,
      c.countP_isSleep_calls 1 last⟩
  · intro hbound n hn
    obtain ⟨rest, hrest⟩ := exists_map_range script (Nat.lt_of_succ_le hn)
    rw [hrest]
    exact course_run_of_endless hlimit hbound (script 0) rest hsleep

/-! ## Runs with and without a limit that can be shown -/

/-- Three attempts, with delays of one and two seconds. -/
def patient : RetryConfig := ⟨.int 3, .int 1, .int 60, .int 2⟩

/-- A failure of the transport. -/
def lost : Result Nat := .error (.client (.requestFailed "http://x" "down" none))

/-- The operation fails twice and then succeeds. -/
def recovering (i : Nat) : Result Nat := if i < 2 then lost else .ok i

/-- The third attempt is the last one and succeeds. -/
theorem run_recovering :
    Course (run patient "op" ((List.range 5).map recovering)) (World.start [] none : World Unit)
      (.ok 2) [.call, .sleep (.int 1), .call, .sleep (.int 2), .call] [] := by
  have hdelay : ∀ i : Nat, 1 ≤ i → (i : Int) < 3 → ∃ wait, patient.delay i = .ok wait := by
    intro i hpos hlt
    obtain rfl | rfl : i = 1 ∨ i = 2 := by omega
    · exact ⟨.int 1, rfl⟩
    · exact ⟨.int 2, rfl⟩
  have hcap : patient.maxDelay.IsNumber := ⟨_, rfl⟩
  obtain ⟨k, hk, hcourse, -⟩ := (run_settles (m := 3) rfl hcap hdelay "op" recovering
    (w := (World.start [] none : World Unit)) rfl).1 (Integer.lt_textBound (by decide))
  obtain rfl : k = 3 := by
    refine hk.unique ⟨⟨by decide, .inr (by decide)⟩, fun j hj => ?_⟩
    have htransient : ∀ i < 2, IsTransient (recovering i) := by
      intro i hi
      rw [recovering, if_pos hi]
      rfl
    obtain ⟨hpos, hfinal | hused⟩ := hj
    · by_contra hlt
      exact hfinal (htransient (j - 1) (by omega))
    · exact_mod_cast hused
  exact hcourse 5 (by decide)

/-- The standard delays with another limit. -/
def limited (m : Int) : RetryConfig := { RetryConfig.standard with maxAttempts := .int m }

/-- Below zero the first call is the last one. But with the greatest negative limit that has no text, the
failure of that call is not what the run gives. -/
theorem run_endless : IsLeast {k | EndsAt (fun _ => lost) (-Integer.textBound) k} 1 ∧
    Course (run (limited (-Integer.textBound)) "op" [lost]) (World.start [] none : World Unit)
      (.error (.fault .badValue)) [.call] [] ∧
    lost ≠ .error (.fault .badValue) := by
  refine ⟨⟨⟨Nat.le.refl, .inr (by omega)⟩, fun k hk => hk.1⟩, ?_, ?_⟩
  · exact course_run_of_endless rfl (by rw [Int.natAbs_neg, Int.natAbs_natCast]) lost [] rfl
  · intro h
    cases h

end Retry

end LedgerClient
