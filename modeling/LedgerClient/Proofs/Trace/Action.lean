import LedgerClient.Trace.Action

/-!
# What actions do to the world

An action gives a result and a world. Here stands what each step does to both; a longer action is
followed step by step through its bind. Many actions only leave notes: their result does not
depend on the world, and all that they change is the trace.
-/

namespace LedgerClient

namespace World

variable {ρ : Type}

/-- Adds events to the trace and leaves everything else as it is. -/
def recordAll (w : World ρ) (es : List Event) : World ρ := { w with events := w.events ++ es }

theorem recordAll_nil (w : World ρ) : w.recordAll [] = w := by
  show { w with events := w.events ++ [] } = w
  rw [List.append_nil]

theorem recordAll_recordAll (w : World ρ) (es fs : List Event) :
    (w.recordAll es).recordAll fs = w.recordAll (es ++ fs) := by
  show { w with events := w.events ++ es ++ fs } = { w with events := w.events ++ (es ++ fs) }
  rw [List.append_assoc]

end World

namespace Action

variable {ρ α β : Type}

theorem perform_ofResult (r : Result α) (w : World ρ) :
    perform (ofResult r : Action ρ α) w = (r, w) := by
  cases r <;> rfl

/-- A failure ends the sequence in the world that it left. -/
theorem perform_bind (a : Action ρ α) (f : α → Action ρ β) (w : World ρ) :
    perform (a >>= f) w =
      match perform a w with
      | (.ok x, after) => perform (f x) after
      | (.error e, after) => (.error e, after) := by
  show (match a.run w with | (r, after) => (ExceptT.bindCont f r) after) = _
  rcases h : perform a w with ⟨r, after⟩
  have hrun : a.run w = (r, after) := h
  rw [hrun]
  cases r <;> rfl

theorem perform_bind_of_ok {a : Action ρ α} {f : α → Action ρ β} {w after : World ρ} {x : α}
    (h : perform a w = (.ok x, after)) : perform (a >>= f) w = perform (f x) after := by
  rw [perform_bind, h]

theorem perform_bind_of_error {a : Action ρ α} {f : α → Action ρ β} {w after : World ρ}
    {e : Failure} (h : perform a w = (.error e, after)) :
    perform (a >>= f) w = (.error e, after) := by
  rw [perform_bind, h]

/-- What follows without effect on the world is part of the result. -/
theorem perform_bind_ofResult (a : Action ρ α) (f : α → Result β) (w : World ρ) :
    perform (a >>= fun x => ofResult (f x)) w = ((perform a w).1 >>= f, (perform a w).2) := by
  rw [perform_bind]
  rcases perform a w with ⟨_ | x, after⟩
  · rfl
  · exact perform_ofResult (f x) after

theorem perform_nextAnswer (w : World ρ) :
    perform nextAnswer w = (.ok w.answers.head?, { w with answers := w.answers.tail }) := by
  obtain ⟨answers, events, sleeps, interruptedSleep, correlation, transport⟩ := w
  cases answers <;> rfl

/-- A sleep leaves its event and counts, also when it is interrupted. -/
theorem perform_sleep (seconds : Value) (w : World ρ) :
    perform (sleep seconds) w =
      (if w.interruptedSleep = some (w.sleeps + 1) then .error (.fault .cancelled) else .ok (),
        { w.recordAll [.sleep seconds] with sleeps := w.sleeps + 1 }) := by
  show perform (if w.interruptedSleep = some (w.sleeps + 1) then throw (.fault .cancelled)
    else pure ()) { w.recordAll [.sleep seconds] with sleeps := w.sleeps + 1 } = _
  split <;> rfl

/-! ## Actions that only leave notes -/

/-- The action gives the result in every world, and the notes are all that it leaves there. -/
def Leaves (a : Action ρ α) (r : Result α) (notes : List Note) : Prop :=
  ∀ w : World ρ, perform a w = (r, w.recordAll (notes.map .note))

theorem leaves_ofResult (r : Result α) : Leaves (ofResult r : Action ρ α) r [] := by
  intro w
  rw [perform_ofResult]
  show _ = (r, w.recordAll [])
  rw [World.recordAll_nil]

theorem leaves_pure (x : α) : Leaves (pure x : Action ρ α) (.ok x) [] := leaves_ofResult (.ok x)

theorem leaves_throw (f : Failure) : Leaves (throw f : Action ρ α) (.error f) [] :=
  leaves_ofResult (.error f)

theorem leaves_note (n : Note) : Leaves (emit (.note n) : Action ρ Unit) (.ok ()) [n] := fun _ => rfl

theorem Leaves.bind {a : Action ρ α} {f : α → Action ρ β} {x : α} {r : Result β}
    {notes more : List Note} (ha : Leaves a (.ok x) notes) (hf : Leaves (f x) r more) :
    Leaves (a >>= f) r (notes ++ more) := by
  intro w
  rw [perform_bind_of_ok (ha w), hf, World.recordAll_recordAll, List.map_append]

theorem Leaves.bind_error {a : Action ρ α} (f : α → Action ρ β) {e : Failure} {notes : List Note}
    (ha : Leaves a (.error e) notes) : Leaves (a >>= f) (.error e) notes :=
  fun w => perform_bind_of_error (ha w)

theorem Leaves.bind_ofResult {a : Action ρ α} (f : α → Result β) {r : Result α} {notes : List Note}
    (ha : Leaves a r notes) : Leaves (a >>= fun x => ofResult (f x)) (r >>= f) notes := by
  intro w
  rw [perform_bind_ofResult, ha]

/-! ## Scopes -/

theorem perform_tryCatch (a : Action ρ α) (handle : Failure → Action ρ α) (w : World ρ) :
    perform (tryCatch a handle) w =
      match perform a w with
      | (.ok x, after) => (.ok x, after)
      | (.error e, after) => perform (handle e) after := by
  unfold perform ExceptT.run
  show (ExceptT.tryCatch a handle : Action ρ α) w = _
  simp only [ExceptT.tryCatch, ExceptT.mk, bind, StateT.bind]
  rcases a w with ⟨_ | _, after⟩ <;> rfl

theorem perform_leaveScope (n : Nat) (w : World ρ) :
    perform (leaveScope n) w = (Result.ofFault (w.correlation.leave n).1,
      { w with correlation := (w.correlation.leave n).2 }) :=
  perform_ofResult _ _

/-- What the last step fails with takes the place of the result. -/
theorem perform_tryFinally (a : Action ρ α) (last : Action ρ Unit) (w : World ρ) :
    perform (tryFinally a last) w =
      ((perform last (perform a w).2).1 >>= fun _ => (perform a w).1,
        (perform last (perform a w).2).2) := by
  rcases hfirst : perform a w with ⟨r, after⟩
  rcases hlast : perform last after with ⟨s, left⟩
  have hrun : a w = (r, after) := hfirst
  have hrunLast : last after = (s, left) := hlast
  unfold perform ExceptT.run
  simp only [tryFinally, tryFinally', ExceptT.mk, Functor.map, ExceptT.map, bind, StateT.bind, pure,
    hrun]
  cases r <;> cases s <;> simp only [hrunLast] <;> rfl

/-- Inside a scope its id is in force. What leaving it fails with takes the place of the result. -/
theorem perform_inScope (n : Nat) {a : Action ρ α} {w after : World ρ} {r : Result α}
    (h : perform a { w with correlation := w.correlation.enter n } = (r, after)) :
    perform (inScope n a) w =
      (Result.ofFault (after.correlation.leave n).1 >>= fun _ => r,
        { after with correlation := (after.correlation.leave n).2 }) := by
  show perform (tryFinally a (leaveScope n)) { w with correlation := w.correlation.enter n } = _
  rw [perform_tryFinally, h, perform_leaveScope]

theorem perform_withScope (heading : Option String) {a : Action ρ α} {w after : World ρ}
    {r : Result α}
    (h : perform a { w with correlation := w.correlation.makeAndEnter heading } = (r, after)) :
    perform (withScope heading a) w =
      (Result.ofFault (after.correlation.leave w.correlation.scopes.length).1 >>= fun _ => r,
        { after with correlation := (after.correlation.leave w.correlation.scopes.length).2 }) :=
  perform_inScope w.correlation.scopes.length h

/-! ## What every step of an action keeps -/

/-- The world behind the action stands in the relation to the world before it. -/
def Within (R : World ρ → World ρ → Prop) (a : Action ρ α) : Prop := ∀ w, R w (perform a w).2

/-- A relation of worlds that holds along notes, pauses and scopes, and from one step to the next. -/
structure Kept (R : World ρ → World ρ → Prop) : Prop where
  notes (w : World ρ) (notes : List Note) : R w (w.recordAll (notes.map .note))
  pause (w : World ρ) (seconds : Value) :
    R w { w.recordAll [.sleep seconds] with sleeps := w.sleeps + 1 }
  scope {w after : World ρ} (heading : Option String) :
    R { w with correlation := w.correlation.makeAndEnter heading } after →
      R w { after with
        correlation := (after.correlation.leave w.correlation.scopes.length).2 }
  trans {u v w : World ρ} : R u v → R v w → R u w

namespace Kept

variable {R : World ρ → World ρ → Prop} (h : Kept R)

include h

theorem leaves {a : Action ρ α} {r : Result α} {notes : List Note} (ha : Leaves a r notes) :
    Within R a := by
  intro w
  rw [ha w]
  exact h.notes w notes

theorem ofResult (r : Result α) : Within R (ofResult r : Action ρ α) := h.leaves (leaves_ofResult r)

theorem pure (x : α) : Within R (pure x : Action ρ α) := h.leaves (leaves_pure x)

theorem throw (f : Failure) : Within R (throw f : Action ρ α) := h.leaves (leaves_throw f)

theorem log (e : LogEntry) : Within R (log e : Action ρ Unit) := h.leaves (leaves_note (.entry e))

/-- A failure leaves the rest of the steps out. -/
theorem bind {a : Action ρ α} {f : α → Action ρ β} (ha : Within R a) (hf : ∀ x, Within R (f x)) :
    Within R (a >>= f) := by
  intro w
  have hfirst := ha w
  rw [perform_bind]
  rcases hperform : perform a w with ⟨_ | x, after⟩
  · rw [hperform] at hfirst
    exact hfirst
  · rw [hperform] at hfirst
    exact h.trans hfirst (hf x after)

theorem bind_ofResult {a : Action ρ α} (ha : Within R a) (f : α → Result β) :
    Within R (a >>= fun x => Action.ofResult (f x)) := h.bind ha fun x => h.ofResult (f x)

theorem sleep (seconds : Value) : Within R (sleep seconds : Action ρ Unit) := by
  intro w
  rw [perform_sleep]
  exact h.pause w seconds

theorem logAttempt (logger : String) (level : Int) (text operation : String) (attempt limit : Value)
    (more : List (String × Value)) :
    Within R (logAttempt logger level text operation attempt limit more : Action ρ Unit) := by
  intro w
  exact h.bind (h.ofResult (Result.ofFault (progressText attempt limit))) (fun progress => h.log _) w

/-- A scope is closed however its action ends. -/
theorem withScope (heading : Option String) {a : Action ρ α} (ha : Within R a) :
    Within R (withScope heading a) := by
  intro w
  have hinside := ha { w with correlation := w.correlation.makeAndEnter heading }
  rcases hperform : perform a { w with correlation := w.correlation.makeAndEnter heading }
    with ⟨r, after⟩
  rw [hperform] at hinside
  rw [perform_withScope heading hperform]
  exact h.scope heading hinside

end Kept

end Action

end LedgerClient
