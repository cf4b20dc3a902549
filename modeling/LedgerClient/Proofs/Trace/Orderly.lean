import LedgerClient.Proofs.Trace.Course

/-!
# Orderly actions

An orderly action adds to the trace, counts the sleeps that it adds, and ends with the id in force with
which it began and with the scopes from before as they were, however it ends. So what a whole operation
does to the ids follows from its steps, and so does the number of the sleep that comes next.
-/

namespace LedgerClient

theorem Event.countP_isSleep_activity (es : List Event) :
    (activity es).countP isSleep = es.countP isSleep := by
  rw [activity, List.countP_filter]
  refine List.countP_congr fun e _ => ?_
  cases e <;> exact Iff.rfl

namespace World

variable {ρ : Type}

/-- The second world came from the first by these events. -/
structure Extends (w after : World ρ) (es : List Event) : Prop where
  events : after.events = w.events ++ es
  sleeps : after.sleeps = w.sleeps + es.countP Event.isSleep
  interruptedSleep : after.interruptedSleep = w.interruptedSleep
  current : after.correlation.current = w.correlation.current
  scopes : w.correlation.scopes <+: after.correlation.scopes

theorem Extends.refl (w : World ρ) : w.Extends w [] :=
  ⟨(List.append_nil _).symm, rfl, rfl, rfl, List.prefix_rfl⟩

theorem Extends.trans {w mid after : World ρ} {es fs : List Event} (h : w.Extends mid es)
    (h' : mid.Extends after fs) : w.Extends after (es ++ fs) where
  events := by rw [h'.events, h.events, List.append_assoc]
  sleeps := by rw [h'.sleeps, h.sleeps, List.countP_append, Nat.add_assoc]
  interruptedSleep := h'.interruptedSleep.trans h.interruptedSleep
  current := h'.current.trans h.current
  scopes := h.scopes.trans h'.scopes

end World

namespace Action

open Event

variable {ρ α β : Type}

def Orderly (a : Action ρ α) : Prop := ∀ w : World ρ, ∃ es, w.Extends (perform a w).2 es

theorem kept_extends : Kept fun w after : World ρ => ∃ es, w.Extends after es where
  notes w notes := by
    have hnone : (notes.map Event.note).countP isSleep = 0 := by
      rw [List.countP_map, List.countP_eq_zero]
      exact fun n _ => Bool.false_ne_true
    exact ⟨notes.map .note, rfl, by rw [hnone]; rfl, rfl, rfl, List.prefix_rfl⟩
  pause w seconds := ⟨[.sleep seconds], rfl, rfl, rfl, rfl, List.prefix_rfl⟩
  scope {w after} heading := by
    rintro ⟨es, hes⟩
    obtain ⟨rest, hleave⟩ := Correlation.leave_makeAndEnter hes.scopes
    rw [hleave]
    exact ⟨es, hes.events, hes.sleeps, hes.interruptedSleep, rfl, List.prefix_append _ rest⟩
  trans := fun ⟨es, hes⟩ ⟨fs, hfs⟩ => ⟨es ++ fs, hes.trans hfs⟩

theorem orderly_ofResult (r : Result α) : Orderly (ofResult r : Action ρ α) := kept_extends.ofResult r

theorem orderly_pure (x : α) : Orderly (pure x : Action ρ α) := kept_extends.pure x

theorem Orderly.bind {a : Action ρ α} {f : α → Action ρ β} (ha : Orderly a)
    (hf : ∀ x, Orderly (f x)) : Orderly (a >>= f) := kept_extends.bind ha hf

theorem orderly_emit {e : Event} (h : e.isSleep = false) : Orderly (emit e : Action ρ Unit) := by
  intro w
  refine ⟨[e], rfl, ?_, rfl, rfl, List.prefix_rfl⟩
  rw [List.countP_singleton, h]
  rfl

theorem orderly_nextAnswer : Orderly (nextAnswer : Action ρ (Option ρ)) := by
  intro w
  rw [perform_nextAnswer]
  exact ⟨[], (List.append_nil _).symm, rfl, rfl, rfl, List.prefix_rfl⟩

theorem orderly_sleep (seconds : Value) : Orderly (sleep seconds : Action ρ Unit) :=
  kept_extends.sleep seconds

/-! ## The sleeps of an orderly operation -/

theorem Course.sleeps {a : Action ρ α} {w : World ρ} {r : Result α} {acts : List Event} {rest : List ρ}
    (h : Course a w r acts rest) (horderly : Orderly a) :
    (perform a w).2.sleeps = w.sleeps + acts.countP isSleep := by
  obtain ⟨es, after, hperform, hevents, hacts, -⟩ := h
  obtain ⟨fs, hfs⟩ := horderly w
  rw [hperform] at hfs ⊢
  obtain rfl : es = fs := List.append_cancel_left (hevents.symm.trans hfs.events)
  rw [hfs.sleeps, ← hacts, countP_isSleep_activity]

/-- Behind an orderly step it is known how many sleeps there were. -/
theorem Course.bind_orderly {a : Action ρ α} {f : α → Action ρ β} {w : World ρ} {x : α} {r : Result β}
    {acts more : List Event} {script rest : List ρ} (ha : Course a w (.ok x) acts script)
    (horderly : Orderly a)
    (hf : ∀ after : World ρ, after.answers = script → after.interruptedSleep = w.interruptedSleep →
      after.sleeps = w.sleeps + acts.countP isSleep → Course (f x) after r more rest) :
    Course (a >>= f) w r (acts ++ more) rest := by
  refine ha.bind_perform fun after hperform hanswers hsleep => hf after hanswers hsleep ?_
  have hsleeps := ha.sleeps horderly
  rwa [hperform] at hsleeps

/-- An orderly action leaves the scope in which it runs to be left, so that its result is the result. -/
theorem Course.withScope (heading : Option String) {a : Action ρ α} {w : World ρ} {r : Result α}
    {acts : List Event} {rest : List ρ} (horderly : Orderly a)
    (h : Course a { w with correlation := w.correlation.makeAndEnter heading } r acts rest) :
    Course (withScope heading a) w r acts rest := by
  obtain ⟨es, after, hperform, hcourse⟩ := h
  obtain ⟨fs, hextends⟩ := horderly { w with correlation := w.correlation.makeAndEnter heading }
  rw [hperform] at hextends
  obtain ⟨later, hleave⟩ := Correlation.leave_makeAndEnter hextends.scopes
  have hscope := perform_withScope heading hperform
  rw [hleave] at hscope
  exact ⟨es, _, hscope, hcourse⟩

end Action

end LedgerClient
