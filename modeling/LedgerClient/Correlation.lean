import LedgerClient.Fault

/-!
# Correlation ids

Records that belong to one operation carry one id. A scope draws an id when it is made. Entering the
scope puts its id in force and keeps the id from before in a token; leaving it brings that id back. A
token serves once. Scopes nest.
-/

namespace LedgerClient

/-- Keeps the id that was in force when another one took its place. -/
structure Correlation.Token where
  before : Option String
  isSpent : Bool

/-- A scope has an id of its own and, once it was entered, the token of its last entry. -/
structure Correlation.Scope where
  id : String
  token : Option Correlation.Token

/-- The id in force, the scopes in the order in which they were made, and the ids still to be drawn. -/
structure Correlation where
  current : Option String
  scopes : List Correlation.Scope
  drawn : Nat
  source : Nat → String

namespace Correlation

def start (source : Nat → String) : Correlation := ⟨none, [], 0, source⟩

/-- Takes the next id without putting it in force. -/
def draw (c : Correlation) : String × Correlation :=
  (c.source c.drawn, { c with drawn := c.drawn + 1 })

/-- An id behind a heading; an empty heading leaves no mark. -/
def headed (heading : Option String) (id : String) : String :=
  match heading with
  | some h => if h.isEmpty then id else h ++ "_" ++ id
  | none => id

/-- Makes a scope with an id of its own, and gives the number of the scope. -/
def make (c : Correlation) (heading : Option String) : Nat × Correlation :=
  let (drawn, c) := c.draw
  (c.scopes.length, { c with scopes := c.scopes ++ [⟨headed heading drawn, none⟩] })

/-- Puts the id of a scope in force. -/
def enter (c : Correlation) (n : Nat) : Correlation :=
  match c.scopes[n]? with
  | some s =>
    { c with current := some s.id, scopes := c.scopes.set n ⟨s.id, some ⟨c.current, false⟩⟩ }
  | none => c

/-- A token is used a second time. -/
def tokenSpent : Fault := .outside (.named "RuntimeError" "the token has been used")

/-- Leaves a scope by the token of its last entry. A scope that was never entered has nothing to bring
back. -/
def leave (c : Correlation) (n : Nat) : Except Fault Unit × Correlation :=
  match c.scopes[n]? with
  | some ⟨id, some ⟨before, false⟩⟩ =>
    (.ok (), { c with current := before, scopes := c.scopes.set n ⟨id, some ⟨before, true⟩⟩ })
  | some ⟨_, some ⟨_, true⟩⟩ => (.error tokenSpent, c)
  | some ⟨_, none⟩ | none => (.ok (), c)

/-- Makes a scope and enters it. -/
def makeAndEnter (c : Correlation) (heading : Option String) : Correlation :=
  (c.make heading).2.enter (c.make heading).1

/-- Replaces the id in force. -/
def assign (c : Correlation) (id : Option String) : Correlation := { c with current := id }

theorem make_fst (c : Correlation) (heading : Option String) :
    (c.make heading).1 = c.scopes.length := rfl

theorem make_scopes (c : Correlation) (heading : Option String) :
    (c.make heading).2.scopes = c.scopes ++ [⟨headed heading (c.source c.drawn), none⟩] := rfl

theorem enter_eq {c : Correlation} {n : Nat} {s : Scope} (h : c.scopes[n]? = some s) :
    c.enter n =
      { c with current := some s.id, scopes := c.scopes.set n ⟨s.id, some ⟨c.current, false⟩⟩ } := by
  rw [enter, h]

theorem getElem?_enter {c : Correlation} {n : Nat} {s : Scope} (h : c.scopes[n]? = some s) :
    (c.enter n).scopes[n]? = some ⟨s.id, some ⟨c.current, false⟩⟩ := by
  rw [enter_eq h]
  exact List.getElem?_set_self (List.getElem?_eq_some_iff.mp h).1

theorem leave_eq {c : Correlation} {n : Nat} {id : String} {before : Option String}
    (h : c.scopes[n]? = some ⟨id, some ⟨before, false⟩⟩) :
    c.leave n =
      (.ok (), { c with current := before, scopes := c.scopes.set n ⟨id, some ⟨before, true⟩⟩ }) := by
  rw [leave, h]

theorem leave_of_spent {c : Correlation} {n : Nat} {id : String} {before : Option String}
    (h : c.scopes[n]? = some ⟨id, some ⟨before, true⟩⟩) : c.leave n = (.error tokenSpent, c) := by
  rw [leave, h]

theorem makeAndEnter_eq (c : Correlation) (heading : Option String) :
    c.makeAndEnter heading = { (c.make heading).2 with
      current := some (headed heading (c.source c.drawn)),
      scopes := c.scopes ++ [⟨headed heading (c.source c.drawn), some ⟨c.current, false⟩⟩] } := by
  have hlast : (c.make heading).2.scopes[c.scopes.length]? =
      some ⟨headed heading (c.source c.drawn), none⟩ := List.getElem?_concat_length
  rw [makeAndEnter, make_fst, enter_eq hlast, make_scopes, List.set_append_right _ _ Nat.le.refl,
    Nat.sub_self]
  rfl

/-- Whatever happened since, as long as the scopes up to this one are as they were, leaving it brings the
id from before back. -/
theorem leave_makeAndEnter {c later : Correlation} {heading : Option String}
    (h : (c.makeAndEnter heading).scopes <+: later.scopes) :
    ∃ rest, later.leave c.scopes.length =
      (.ok (), { later with current := c.current, scopes := c.scopes ++ rest }) := by
  obtain ⟨rest, hrest⟩ := h
  rw [makeAndEnter_eq, List.append_assoc] at hrest
  have hopen : later.scopes[c.scopes.length]? =
      some ⟨headed heading (c.source c.drawn), some ⟨c.current, false⟩⟩ := by
    rw [← hrest, List.getElem?_append_right Nat.le.refl, Nat.sub_self]
    rfl
  refine ⟨⟨headed heading (c.source c.drawn), some ⟨c.current, true⟩⟩ :: rest, ?_⟩
  rw [leave_eq hopen, ← hrest, List.set_append_right _ _ Nat.le.refl, Nat.sub_self]
  rfl

/-- What was put in force by hand inside a scope ends with it. -/
theorem leave_assign_enter {c : Correlation} {n : Nat} {s : Scope} (h : c.scopes[n]? = some s)
    (id : Option String) : (((c.enter n).assign id).leave n).2.current = c.current := by
  have hopen : ((c.enter n).assign id).scopes[n]? = some ⟨s.id, some ⟨c.current, false⟩⟩ :=
    getElem?_enter h
  rw [leave_eq hopen]

/-- What stands in front of a record: nothing for an absent or empty id. -/
def mark (c : Correlation) : List String :=
  match c.current with
  | some id => if id.isEmpty then [] else ["[" ++ id ++ "]"]
  | none => []

/-! ## Steps -/

inductive Step where
  | enter (heading : Option String)
  | leave
  | assign (id : Option String)
  | draw
  | look

/-- Performs a step while some scopes are open, the innermost first. A scope is made where it is entered.
Opening a scope and drawing give an id. -/
def perform (c : Correlation) (opened : List Nat) : Step → Option String × List Nat × Correlation
  | .enter heading =>
    let entered := c.makeAndEnter heading
    (entered.current, c.scopes.length :: opened, entered)
  | .leave =>
    match opened with
    | [] => (none, [], c)
    | n :: rest => (none, rest, (c.leave n).2)
  | .assign id => (none, opened, c.assign id)
  | .draw =>
    let (id, c) := c.draw
    (some id, opened, c)
  | .look => (none, opened, c)

/-- The result of every step with the id in force after it. -/
def runIn (c : Correlation) (opened : List Nat) : List Step → List (Option String × Option String)
  | [] => []
  | step :: rest =>
    let (result, opened, c) := c.perform opened step
    (result, c.current) :: runIn c opened rest

def run (c : Correlation) (steps : List Step) : List (Option String × Option String) := c.runIn [] steps

theorem runIn_length (c : Correlation) (opened : List Nat) (steps : List Step) :
    (c.runIn opened steps).length = steps.length := by
  induction steps generalizing c opened with
  | nil => rfl
  | cons step rest ih => simp [runIn, ih]

end Correlation

end LedgerClient
