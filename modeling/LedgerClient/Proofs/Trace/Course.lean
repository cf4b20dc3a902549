import LedgerClient.Proofs.Trace.Action

/-!
# The course of an operation

What an operation does besides leaving notes: its activity, that is the calls, queries, sleeps and
requests in their order, its result, and the answers that it leaves to those behind it. The course of
a sequence is put together from the courses of its steps.
-/

namespace LedgerClient

namespace Event

def isNote : Event → Bool
  | .note _ => true
  | _ => false

/-- The events other than notes. -/
def activity (es : List Event) : List Event := es.filter fun e => !e.isNote

theorem activity_append (es fs : List Event) : activity (es ++ fs) = activity es ++ activity fs :=
  List.filter_append ..

theorem activity_notes (notes : List Note) : activity (notes.map .note) = [] := by
  induction notes with
  | nil => rfl
  | cons n notes ih => exact ih

end Event

namespace Action

open Event

variable {ρ α β : Type}

/-- From a world with this script the operation gives the result, with this activity, and leaves the
rest of the script. -/
def Course (a : Action ρ α) (w : World ρ) (r : Result α) (acts : List Event) (rest : List ρ) : Prop :=
  ∃ es after, perform a w = (r, after) ∧ after.events = w.events ++ es ∧ activity es = acts ∧
    after.answers = rest ∧ after.interruptedSleep = w.interruptedSleep

theorem Course.result {a : Action ρ α} {w : World ρ} {r : Result α} {acts : List Event} {rest : List ρ}
    (h : Course a w r acts rest) : (perform a w).1 = r := by
  obtain ⟨es, after, hperform, -⟩ := h
  rw [hperform]

theorem Leaves.course {a : Action ρ α} {r : Result α} {notes : List Note} (h : Leaves a r notes)
    (w : World ρ) : Course a w r [] w.answers :=
  ⟨notes.map .note, w.recordAll (notes.map .note), h w, rfl, activity_notes notes, rfl, rfl⟩

theorem course_ofResult (r : Result α) (w : World ρ) : Course (ofResult r) w r [] w.answers :=
  (leaves_ofResult r).course w

theorem course_pure (x : α) (w : World ρ) : Course (pure x) w (.ok x) [] w.answers :=
  course_ofResult (.ok x) w

theorem course_throw (f : Failure) (w : World ρ) :
    Course (throw f : Action ρ α) w (.error f) [] w.answers :=
  course_ofResult (.error f) w

/-- The second step starts in the world that the first one leaves. -/
theorem Course.bind_perform {a : Action ρ α} {f : α → Action ρ β} {w : World ρ} {x : α} {r : Result β}
    {acts more : List Event} {script rest : List ρ} (ha : Course a w (.ok x) acts script)
    (hf : ∀ after : World ρ, perform a w = (.ok x, after) → after.answers = script →
      after.interruptedSleep = w.interruptedSleep → Course (f x) after r more rest) :
    Course (a >>= f) w r (acts ++ more) rest := by
  obtain ⟨es, mid, hperform, hevents, hacts, hanswers, hsleep⟩ := ha
  obtain ⟨fs, after, hperform', hevents', hmore, hrest, hsleep'⟩ := hf mid hperform hanswers hsleep
  refine ⟨es ++ fs, after, ?_, ?_, ?_, hrest, hsleep'.trans hsleep⟩
  · rw [perform_bind_of_ok hperform, hperform']
  · rw [hevents', hevents, List.append_assoc]
  · rw [activity_append, hacts, hmore]

/-- The second step starts where the first one ends. -/
theorem Course.bind {a : Action ρ α} {f : α → Action ρ β} {w : World ρ} {x : α} {r : Result β}
    {acts more : List Event} {script rest : List ρ} (ha : Course a w (.ok x) acts script)
    (hf : ∀ after : World ρ, after.answers = script →
      after.interruptedSleep = w.interruptedSleep → Course (f x) after r more rest) :
    Course (a >>= f) w r (acts ++ more) rest :=
  ha.bind_perform fun after _ => hf after

theorem Course.bind_error {a : Action ρ α} (f : α → Action ρ β) {w : World ρ} {e : Failure}
    {acts : List Event} {rest : List ρ} (ha : Course a w (.error e) acts rest) :
    Course (a >>= f) w (.error e) acts rest := by
  obtain ⟨es, after, hperform, hevents⟩ := ha
  exact ⟨es, after, perform_bind_of_error hperform, hevents⟩

/-- A step without activity does not show in that of the sequence. -/
theorem Course.bind_silent {a : Action ρ α} {f : α → Action ρ β} {w : World ρ} {x : α} {r : Result β}
    {acts : List Event} {script rest : List ρ} (ha : Course a w (.ok x) [] script)
    (hf : ∀ after : World ρ, after.answers = script →
      after.interruptedSleep = w.interruptedSleep → Course (f x) after r acts rest) :
    Course (a >>= f) w r acts rest :=
  ha.bind hf

/-- Behind a step that decides the activity and the rest of the script, another without either gives
the result. -/
theorem Course.bind_quiet {a : Action ρ α} {f : α → Action ρ β} {w : World ρ} {x : α} {r : Result β}
    {acts : List Event} {rest : List ρ} (ha : Course a w (.ok x) acts rest)
    (hf : ∀ after : World ρ, Course (f x) after r [] after.answers) :
    Course (a >>= f) w r acts rest := by
  rw [← List.append_nil acts]
  refine ha.bind fun after hanswers _ => ?_
  rw [← hanswers]
  exact hf after

theorem Course.after_leaves {a : Action ρ α} {f : α → Action ρ β} {w : World ρ} {x : α} {r : Result β}
    {notes : List Note} {acts : List Event} {rest : List ρ} (ha : Leaves a (.ok x) notes)
    (hf : ∀ after : World ρ, after.answers = w.answers →
      after.interruptedSleep = w.interruptedSleep → Course (f x) after r acts rest) :
    Course (a >>= f) w r acts rest :=
  (ha.course w).bind_silent hf

theorem Course.bind_ofResult {a : Action ρ α} (f : α → Result β) {w : World ρ} {r : Result α}
    {acts : List Event} {rest : List ρ} (ha : Course a w r acts rest) :
    Course (a >>= fun x => ofResult (f x)) w (r >>= f) acts rest := by
  obtain ⟨es, after, hperform, hcourse⟩ := ha
  refine ⟨es, after, ?_, hcourse⟩
  rw [perform_bind_ofResult, hperform]

theorem course_sleep (seconds : Value) {w : World ρ}
    (h : w.interruptedSleep ≠ some (w.sleeps + 1)) :
    Course (sleep seconds) w (.ok ()) [.sleep seconds] w.answers := by
  have hperform := perform_sleep seconds w
  rw [if_neg h] at hperform
  exact ⟨[.sleep seconds], _, hperform, rfl, rfl, rfl, rfl⟩

theorem course_sleep_of_none (seconds : Value) {w : World ρ} (h : w.interruptedSleep = none) :
    Course (sleep seconds) w (.ok ()) [.sleep seconds] w.answers :=
  course_sleep seconds (h ▸ (Option.some_ne_none _).symm)

theorem course_sleep_of_interrupted (seconds : Value) {w : World ρ}
    (h : w.interruptedSleep = some (w.sleeps + 1)) :
    Course (sleep seconds) w (.error (.fault .cancelled)) [.sleep seconds] w.answers := by
  have hperform := perform_sleep seconds w
  rw [if_pos h] at hperform
  exact ⟨[.sleep seconds], _, hperform, rfl, rfl, rfl, rfl⟩

/-! ## Records of an operation -/

theorem exists_progressText {a m : Int} (ha : a.natAbs < Integer.textBound)
    (hm : m.natAbs < Integer.textBound) :
    ∃ progress, progressText (.int a) (.int m) = .ok progress := by
  have hattempt : (Value.int a).display = .ok (Integer.decimal a) := Value.integerText_of_lt ha
  have hlimit : (Value.int m).display = .ok (Integer.decimal m) := Value.integerText_of_lt hm
  rw [progressText, hattempt, hlimit]
  exact ⟨_, rfl⟩

/-- A limit without a text cannot be shown, whatever the number of the attempt. -/
theorem progressText_of_endless (a : Int) {m : Int} (hm : Integer.textBound ≤ m.natAbs) :
    progressText (.int a) (.int m) = .error .badValue := by
  have hlimit : (Value.int m).display = .error .badValue := Value.integerText_of_le hm
  rcases Nat.lt_or_ge a.natAbs Integer.textBound with hlt | hge
  · have hattempt : (Value.int a).display = .ok (Integer.decimal a) := Value.integerText_of_lt hlt
    rw [progressText, hattempt, hlimit]
    rfl
  · have hattempt : (Value.int a).display = .error .badValue := Value.integerText_of_le hge
    rw [progressText, hattempt]
    rfl

theorem course_logAttempt (logger : String) (level : Int) (text operation : String)
    {attempt limit : Value} (more : List (String × Value)) {progress : List String}
    (h : progressText attempt limit = .ok progress) (w : World ρ) :
    Course (logAttempt logger level text operation attempt limit more) w (.ok ()) [] w.answers := by
  have hprogress : (ofFault (progressText attempt limit) : Action ρ _) = pure progress := by
    rw [h]
    rfl
  unfold logAttempt
  rw [hprogress]
  exact ⟨[_], _, rfl, rfl, rfl, rfl, rfl⟩

theorem course_logAttempt_of_error (logger : String) (level : Int) (text operation : String)
    {attempt limit : Value} (more : List (String × Value)) {f : Fault}
    (h : progressText attempt limit = .error f) (w : World ρ) :
    Course (logAttempt logger level text operation attempt limit more) w (.error (.fault f)) []
      w.answers := by
  have hprogress : (ofFault (progressText attempt limit) : Action ρ _) = throw (.fault f) := by
    rw [h]
    rfl
  unfold logAttempt
  rw [hprogress]
  exact ⟨[], w, rfl, (List.append_nil _).symm, rfl, rfl, rfl⟩

end Action

end LedgerClient
