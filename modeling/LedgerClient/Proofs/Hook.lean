import LedgerClient.Hook
import LedgerClient.Proofs.Result
import LedgerClient.Proofs.Trace.Action

/-!
# Telling the hooks

The hooks are told in order up to the first that fails, and its failure is that of the telling. All
that they leave are the notes of those that were told.
-/

namespace LedgerClient.Hook

variable {ρ : Type}

/-- The first failure among some reactions. -/
def verdict : List Reaction → Result Unit
  | [] => .ok ()
  | r :: rest =>
    match r.failure with
    | some f => .error f
    | none => verdict rest

/-- The notes of the reactions up to the first failure. -/
def heard : List Reaction → List Note
  | [] => []
  | r :: rest =>
    match r.failure with
    | some _ => r.notes
    | none => r.notes ++ heard rest

theorem verdict_eq_ok_iff (rs : List Reaction) :
    verdict rs = .ok () ↔ ∀ r ∈ rs, r.failure = none := by
  induction rs with
  | nil => exact iff_of_true rfl (List.forall_mem_nil _)
  | cons r rest ih =>
    rw [verdict, List.forall_mem_cons]
    cases hr : r.failure with
    | some f => exact iff_of_false error_ne_ok (fun h => absurd h.1 (Option.some_ne_none f))
    | none => exact ih.trans (iff_and_self.mpr fun _ => rfl)

/-! ## Hooks by their reactions -/

/-- The notes of some hooks about one occasion, in their order. -/
def notesOf (reaction : Hook → Reaction) (hooks : List Hook) : List Note :=
  hooks.flatMap fun h => (reaction h).notes

section

variable {reaction : Hook → Reaction} {hooks front : List Hook} {h : Hook} {f : Failure}

theorem all_or_first_failure (reaction : Hook → Reaction) (hooks : List Hook) :
    (∀ h ∈ hooks, (reaction h).failure = none) ∨
      ∃ front h back f, hooks = front ++ h :: back ∧
        (∀ g ∈ front, (reaction g).failure = none) ∧ (reaction h).failure = some f := by
  induction hooks with
  | nil => exact .inl (List.forall_mem_nil _)
  | cons g rest ih =>
    cases hg : (reaction g).failure with
    | some f => exact .inr ⟨[], g, rest, f, rfl, List.forall_mem_nil _, hg⟩
    | none =>
      rcases ih with hall | ⟨front, h, back, f, rfl, hfront, hfail⟩
      · exact .inl (List.forall_mem_cons.mpr ⟨hg, hall⟩)
      · exact .inr ⟨g :: front, h, back, f, rfl, List.forall_mem_cons.mpr ⟨hg, hfront⟩, hfail⟩

theorem heard_of_all (hall : ∀ h ∈ hooks, (reaction h).failure = none) :
    heard (hooks.map reaction) = notesOf reaction hooks := by
  induction hooks with
  | nil => rfl
  | cons g rest ih =>
    obtain ⟨hg, hrest⟩ := List.forall_mem_cons.mp hall
    rw [List.map_cons, heard, hg]
    show (reaction g).notes ++ heard (rest.map reaction) = (reaction g).notes ++ notesOf reaction rest
    rw [ih hrest]

/-- The first hook that fails is the last one that is heard, and its failure is the verdict. -/
theorem heard_of_first_failure (back : List Hook)
    (hfront : ∀ g ∈ front, (reaction g).failure = none)
    (hfail : (reaction h).failure = some f) :
    verdict ((front ++ h :: back).map reaction) = .error f ∧
      heard ((front ++ h :: back).map reaction) = notesOf reaction (front ++ [h]) := by
  induction front with
  | nil =>
    rw [List.nil_append, List.map_cons, verdict, heard, hfail]
    exact ⟨rfl, (List.append_nil _).symm⟩
  | cons g front ih =>
    obtain ⟨hg, hrest⟩ := List.forall_mem_cons.mp hfront
    obtain ⟨hverdict, hheard⟩ := ih hrest
    rw [List.cons_append, List.map_cons, verdict, heard, hg]
    refine ⟨hverdict, ?_⟩
    show (reaction g).notes ++ heard ((front ++ h :: back).map reaction) =
      (reaction g).notes ++ notesOf reaction (front ++ [h])
    rw [hheard]

end

/-! ## The actions -/

theorem leaves_leaveNotes (notes : List Note) :
    Action.Leaves (leaveNotes notes : Action ρ Unit) (.ok ()) notes := by
  induction notes with
  | nil => exact Action.leaves_pure ()
  | cons n rest ih => exact (Action.leaves_note n).bind ih

theorem leaves_react (rs : List Reaction) :
    Action.Leaves (react rs : Action ρ Unit) (verdict rs) (heard rs) := by
  induction rs with
  | nil => exact Action.leaves_pure ()
  | cons r rest ih =>
    cases hr : r.failure with
    | some f =>
      have hstep : (react (r :: rest) : Action ρ Unit) =
          leaveNotes r.notes >>= fun _ => throw f := by rw [react, hr]
      have hfail := (leaves_leaveNotes (ρ := ρ) r.notes).bind (f := fun _ => throw f)
        (Action.leaves_throw (α := Unit) f)
      rw [List.append_nil] at hfail
      rw [hstep, verdict, heard, hr]
      exact hfail
    | none =>
      have hstep : (react (r :: rest) : Action ρ Unit) =
          leaveNotes r.notes >>= fun _ => react rest := by rw [react, hr]
      rw [hstep, verdict, heard, hr]
      exact (leaves_leaveNotes r.notes).bind ih

end LedgerClient.Hook
