import LedgerClient.Proofs.Result
import LedgerClient.Value.Text

/-!
# Which values have a text

An integer beyond the limit of digits has no text, and neither has a container in which one stands, at
whatever depth. Every other value that consists of plain data is shown. A member of an enumeration shows
its own value in the detailed form only.
-/

namespace LedgerClient.Value

mutual

/-- An integer without a text stands somewhere in what is shown of the value. -/
def showsTextless (full : Bool) : Value → Bool
  | .int n => decide (Integer.textBound ≤ n.natAbs)
  | .list items | .tuple items => anyTextless items
  | .dict entries => anyEntryTextless entries
  | .member _ _ value => full && showsTextless true value
  | .pair key value => showsTextless true key || showsTextless true value
  | _ => false

def anyTextless : List Value → Bool
  | [] => false
  | v :: rest => showsTextless true v || anyTextless rest

def anyEntryTextless : List (Value × Value) → Bool
  | [] => false
  | (key, value) :: rest =>
    showsTextless true key || (showsTextless true value || anyEntryTextless rest)

end

/-- An integer without a text stands somewhere in the plain text. -/
def isTextless (v : Value) : Bool := showsTextless false v

mutual

/-- Data without signatures, payloads and other objects in it. -/
def isPlain : Value → Bool
  | .list items | .tuple items => allPlain items
  | .dict entries => allEntriesPlain entries
  | .member _ _ value => isPlain value
  | .pair key value => isPlain key && isPlain value
  | .signature .. | .poll .. | .payload .. | .decoder _ | .failure .. => false
  | _ => true

def allPlain : List Value → Bool
  | [] => true
  | v :: rest => isPlain v && allPlain rest

def allEntriesPlain : List (Value × Value) → Bool
  | [] => true
  | (key, value) :: rest => isPlain key && (isPlain value && allEntriesPlain rest)

end

theorem isPlain_of_lookup {key : String} {entries : List (Value × Value)} {v : Value}
    (h : allEntriesPlain entries = true) (hlookup : lookup key entries = some v) :
    v.isPlain = true := by
  induction entries with
  | nil => cases hlookup
  | cons e rest ih =>
    obtain ⟨k, w⟩ := e
    simp only [allEntriesPlain, Bool.and_eq_true] at h
    obtain ⟨-, hw, hrest⟩ := h
    unfold lookup at hlookup
    split at hlookup
    · next hnil => cases hnil
    · next heq =>
      cases heq
      split at hlookup
      · cases hlookup
        exact hw
      · exact ih hrest hlookup
    · next heq =>
      cases heq
      exact ih hrest hlookup

/-! ## Answers -/

/-- There is an answer unless the flag is set; then there is a bad value instead. -/
def AnswersUnless {α : Type} (textless : Bool) (x : Except Fault α) : Prop :=
  if textless then x = .error .badValue else ∃ a, x = .ok a

namespace AnswersUnless

variable {α β : Type} {b c : Bool} {x : Except Fault α} {f : α → Except Fault β}

theorem ok (a : α) : AnswersUnless false (.ok a : Except Fault α) := ⟨a, rfl⟩

theorem bind (hx : AnswersUnless b x) (hf : ∀ a, AnswersUnless c (f a)) :
    AnswersUnless (b || c) (x >>= f) := by
  cases b with
  | true =>
    have herror : x = .error .badValue := hx
    rw [herror]
    exact rfl
  | false =>
    obtain ⟨a, rfl⟩ : ∃ a, x = .ok a := hx
    exact hf a

theorem map (hx : AnswersUnless b x) (g : α → β) : AnswersUnless b (x >>= fun a => .ok (g a)) := by
  have h := hx.bind fun a => ok (g a)
  rwa [Bool.or_false] at h

theorem eq_error_iff (h : AnswersUnless b x) {e : Fault} :
    x = .error e ↔ b = true ∧ e = .badValue := by
  cases b with
  | true =>
    have herror : x = .error .badValue := h
    rw [herror, Except.error.injEq]
    exact ⟨fun he => ⟨rfl, he.symm⟩, fun he => he.2.symm⟩
  | false =>
    obtain ⟨a, rfl⟩ : ∃ a, x = .ok a := h
    exact iff_of_false (fun he => by cases he) fun he => by cases he.1

theorem exists_ok_iff (h : AnswersUnless b x) : (∃ a, x = .ok a) ↔ b = false := by
  cases b with
  | true =>
    have herror : x = .error .badValue := h
    rw [herror]
    exact iff_of_false (fun ⟨_, he⟩ => by cases he) fun he => by cases he
  | false => exact iff_of_true h rfl

end AnswersUnless

theorem answersUnless_integerText (n : Int) :
    AnswersUnless (decide (Integer.textBound ≤ n.natAbs)) (integerText n) := by
  by_cases h : Integer.textBound ≤ n.natAbs
  · rw [decide_eq_true h]
    exact integerText_of_le h
  · rw [decide_eq_false h, integerText_of_lt (Nat.lt_of_not_le h)]
    exact .ok _

mutual

theorem answersUnless_shown (full : Bool) (v : Value) (h : v.isPlain = true) :
    AnswersUnless (v.showsTextless full) (shown full v) := by
  cases v with
  | int n => exact answersUnless_integerText n
  | list items => exact (answersUnless_shownItems items h).map _
  | tuple items => exact (answersUnless_shownItems items h).map _
  | dict entries => exact (answersUnless_shownEntries entries h).map _
  | member family name value =>
    cases full with
    | false => exact .ok _
    | true => exact (answersUnless_shown true value h).map _
  | pair key value =>
    rw [isPlain, Bool.and_eq_true] at h
    exact (answersUnless_shown true key h.1).bind fun _ => (answersUnless_shown true value h.2).map _
  | signature => cases h
  | poll => cases h
  | payload => cases h
  | decoder => cases h
  | failure => cases h
  | _ => exact .ok _

theorem answersUnless_shownItems (items : List Value) (h : allPlain items = true) :
    AnswersUnless (anyTextless items) (shownItems items) := by
  cases items with
  | nil => exact .ok _
  | cons v rest =>
    rw [allPlain, Bool.and_eq_true] at h
    exact (answersUnless_shown true v h.1).bind fun _ => (answersUnless_shownItems rest h.2).map _

theorem answersUnless_shownEntries (entries : List (Value × Value))
    (h : allEntriesPlain entries = true) :
    AnswersUnless (anyEntryTextless entries) (shownEntries entries) := by
  match entries, h with
  | [], _ => exact .ok _
  | (key, value) :: rest, h =>
    rw [allEntriesPlain, Bool.and_eq_true, Bool.and_eq_true] at h
    exact (answersUnless_shown true key h.1).bind fun _ =>
      (answersUnless_shown true value h.2.1).bind fun _ =>
        (answersUnless_shownEntries rest h.2.2).map _

end

/-- A plain value has a text exactly when no integer without one stands in it. -/
theorem answersUnless_display {v : Value} (h : v.isPlain = true) :
    AnswersUnless v.isTextless v.display := answersUnless_shown false v h

theorem answersUnless_script {v : Value} (h : v.isPlain = true) :
    AnswersUnless v.isTextless v.script := by
  unfold script
  split
  · exact .ok _
  · exact (answersUnless_display h).map _

end LedgerClient.Value
