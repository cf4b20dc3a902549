import LedgerClient.Proofs.Trace.Action
import LedgerClient.Retry

/-!
# Nested scopes

In a program of scopes blocks stand one behind another and one inside another, and a block ends with a
result or with a failure, which may be rescued further out. Wherever such a program is, the id in force
is that of the innermost open block, or the one from before the program where no block is open. Every
record that is made there begins with that id, and is filed under it unless it gives another one itself.
A block finds its own token when it ends, because nothing inside it enters the same scope.
-/

namespace LedgerClient

/-! ## Entering, leaving and what lies between -/

namespace Correlation

/-- The ids of the scopes in the order in which they were made. -/
def ids (c : Correlation) : List String := c.scopes.map Scope.id

/-- The id from before is in force again, the scopes around are as they were, and every scope that was
made keeps its id. -/
structure Restores (around : List Nat) (c later : Correlation) : Prop where
  current : later.current = c.current
  around : ∀ n ∈ around, ∀ s, c.scopes[n]? = some s → later.scopes[n]? = some s
  ids : c.ids <+: later.ids

theorem Restores.refl (around : List Nat) (c : Correlation) : Restores around c c :=
  ⟨rfl, fun _ _ _ h => h, List.prefix_rfl⟩

theorem Restores.trans {around : List Nat} {c mid later : Correlation} (h : Restores around c mid)
    (h' : Restores around mid later) : Restores around c later where
  current := h'.current.trans h.current
  around n hn s hs := h'.around n hn s (h.around n hn s hs)
  ids := h.ids.trans h'.ids

theorem Restores.length_le {around : List Nat} {c later : Correlation} (h : Restores around c later) :
    c.scopes.length ≤ later.scopes.length := by
  have hle := h.ids.length_le
  rwa [Correlation.ids, Correlation.ids, List.length_map, List.length_map] at hle

theorem restores_make (around : List Nat) (c : Correlation) (heading : Option String) :
    Restores around c (c.make heading).2 where
  current := rfl
  around n _ s hs := by
    rw [make_scopes, List.getElem?_append_left (List.getElem?_eq_some_iff.mp hs).1]
    exact hs
  ids := by
    rw [Correlation.ids, Correlation.ids, make_scopes, List.map_append]
    exact List.prefix_append _ _

theorem length_make (c : Correlation) (heading : Option String) :
    (c.make heading).2.scopes.length = c.scopes.length + 1 := by
  rw [make_scopes, List.length_append]
  rfl

/-- A scope that is entered or left keeps its id. -/
theorem map_id_set {scopes : List Scope} {n : Nat} {s : Scope} (h : scopes[n]? = some s)
    (token : Option Token) : (scopes.set n ⟨s.id, token⟩).map Scope.id = scopes.map Scope.id := by
  obtain ⟨hn, rfl⟩ := List.getElem?_eq_some_iff.mp h
  have hmap : n < (scopes.map Scope.id).length := by rwa [List.length_map]
  rw [List.map_set, ← List.getElem_map Scope.id (h := hmap), List.set_getElem_self]

theorem length_enter {c : Correlation} {n : Nat} {s : Scope} (h : c.scopes[n]? = some s) :
    (c.enter n).scopes.length = c.scopes.length := by
  rw [enter_eq h]
  exact List.length_set

/-- Between entering and leaving a scope anything may happen that restores the id and the scope's own
token. Then leaving succeeds and brings back the id from before. -/
theorem Restores.leave {around : List Nat} {c later : Correlation} {n : Nat} {s : Scope}
    (hs : c.scopes[n]? = some s) (hn : n ∉ around) (h : Restores (n :: around) (c.enter n) later) :
    (later.leave n).1 = .ok () ∧ Restores around c (later.leave n).2 := by
  have hopen : later.scopes[n]? = some ⟨s.id, some ⟨c.current, false⟩⟩ :=
    h.around n List.mem_cons_self _ (getElem?_enter hs)
  rw [leave_eq hopen]
  refine ⟨rfl, rfl, ?_, ?_⟩
  · -- Both writes are to the scope itself, which is none of the scopes around.
    intro m hm t ht
    have hne : n ≠ m := fun heq => hn (heq ▸ hm)
    have hentered : (c.enter n).scopes[m]? = some t := by
      rw [enter_eq hs]
      exact (List.getElem?_set_ne hne).trans ht
    exact (List.getElem?_set_ne hne).trans (h.around m (List.mem_cons_of_mem _ hm) t hentered)
  · have hids := h.ids
    rw [Correlation.ids, enter_eq hs, map_id_set hs] at hids
    rw [Correlation.ids, Correlation.ids, map_id_set hopen]
    exact hids

/-- A scope that was entered inside itself is left once; then its id is in force and its token spent. -/
theorem Restores.leave_reentered {c later : Correlation} {n : Nat} {s : Scope}
    (hs : c.scopes[n]? = some s) (h : Restores [n] ((c.enter n).enter n) later) :
    (later.leave n).2.current = some s.id ∧
      (later.leave n).2.leave n = (.error tokenSpent, (later.leave n).2) := by
  have hcurrent : (c.enter n).current = some s.id := congrArg Correlation.current (enter_eq hs)
  have hentered := getElem?_enter (getElem?_enter hs)
  rw [hcurrent] at hentered
  have hopen : later.scopes[n]? = some ⟨s.id, some ⟨some s.id, false⟩⟩ :=
    h.around n List.mem_cons_self _ hentered
  rw [leave_eq hopen]
  exact ⟨rfl, leave_of_spent (List.getElem?_set_self (List.getElem?_eq_some_iff.mp hopen).1)⟩

end Correlation

/-! ## Records under an id -/

namespace LogEntry

end LogEntry

/-- What is told to the log about an attempt. -/
structure Report where
  logger : String
  level : Int
  text : String
  operation : String
  attempt : Value
  limit : Value
  more : List (String × Value)

namespace Report

variable {ρ : Type}

def log (r : Report) : Action ρ Unit :=
  Action.logAttempt r.logger r.level r.text r.operation r.attempt r.limit r.more

/-- The id that the report gives itself. -/
def own? (r : Report) : Option Value := r.more.lookup "correlation_id"

/-- The record that is made with this progress. -/
def entry (r : Report) (c : Correlation) (progress : List String) : LogEntry :=
  ⟨⟨r.logger, r.level,
      " ".intercalate (c.mark ++ ["[" ++ r.operation ++ "]"] ++ progress ++ [r.text])⟩,
    [("operation", .text r.operation), ("attempt", r.attempt), ("max_attempts", r.limit)] ++ r.more,
    some (r.own?.getD (ClientError.optionalText c.current))⟩

/-- A report makes one record, or none when its progress cannot be shown. -/
theorem perform_log (r : Report) (w : World ρ) :
    (∃ progress, Action.perform r.log w =
      (.ok (), w.record (.note (.entry (r.entry w.correlation progress))))) ∨
    ∃ f, Action.perform r.log w = (.error f, w) := by
  unfold log Action.logAttempt
  cases hprogress : Action.progressText r.attempt r.limit with
  | ok progress => exact .inl ⟨progress, rfl⟩
  | error f => exact .inr ⟨.fault f, rfl⟩

end Report

/-! ## Programs -/

namespace World

variable {ρ : Type}

def make (w : World ρ) (heading : Option String) : World ρ :=
  { w with correlation := (w.correlation.make heading).2 }

def enter (w : World ρ) (n : Nat) : World ρ := { w with correlation := w.correlation.enter n }

theorem current_enter {w : World ρ} {n : Nat} {s : Correlation.Scope}
    (h : w.correlation.scopes[n]? = some s) : (w.enter n).correlation.current = some s.id :=
  congrArg Correlation.current (Correlation.enter_eq h)

/-- The later world came from the first by events, and what they record under an id has the property. -/
def Adds (P : LogEntry → Prop) (w later : World ρ) : Prop :=
  ∃ es, later.events = w.events ++ es ∧
    ∀ e, .note (.entry e) ∈ es → e.correlation ≠ none → P e

theorem Adds.refl {P : LogEntry → Prop} (w : World ρ) : w.Adds P w :=
  ⟨[], (List.append_nil _).symm, fun _ he => absurd he List.not_mem_nil⟩

theorem Adds.mono {P Q : LogEntry → Prop} {w later : World ρ} (h : w.Adds P later)
    (hPQ : ∀ e, P e → Q e) : w.Adds Q later := by
  obtain ⟨es, hes, hall⟩ := h
  exact ⟨es, hes, fun e he hfiled => hPQ e (hall e he hfiled)⟩

theorem Adds.trans {P : LogEntry → Prop} {w mid later : World ρ} (h : w.Adds P mid)
    (h' : mid.Adds P later) : w.Adds P later := by
  obtain ⟨es, hes, hall⟩ := h
  obtain ⟨fs, hfs, hallNext⟩ := h'
  refine ⟨es ++ fs, by rw [hfs, hes, List.append_assoc], fun e he hfiled => ?_⟩
  rcases List.mem_append.mp he with he | he
  · exact hall e he hfiled
  · exact hallNext e he hfiled

end World

/-- The action leaves the ids alone and makes no record under one. -/
def Action.Silent {ρ α : Type} (a : Action ρ α) : Prop :=
  ∀ w, (perform a w).2.correlation = w.correlation ∧ w.Adds (fun _ => False) (perform a w).2

/-- A program of scopes: blocks, reports, and actions that do not concern the ids. A scope may be made
long before the block that enters it. -/
inductive Program (ρ : Type) : Type → Type 1 where
  | act {α : Type} (a : Action ρ α) : Program ρ α
  | report (r : Report) : Program ρ Unit
  | make {α : Type} (heading : Option String) (rest : Nat → Program ρ α) : Program ρ α
  | block {α : Type} (n : Nat) (body : Program ρ α) : Program ρ α
  | bind {α β : Type} (first : Program ρ α) (next : α → Program ρ β) : Program ρ β
  | rescue {α : Type} (body : Program ρ α) (handle : Failure → Program ρ α) : Program ρ α

namespace Program

open LedgerClient.Action

variable {ρ α β : Type}

def run : {α : Type} → Program ρ α → Action ρ α
  | _, act a => a
  | _, report r => r.log
  | _, make heading rest => makeScope heading >>= fun n => (rest n).run
  | _, block n body => inScope n body.run
  | _, bind first next => first.run >>= fun x => (next x).run
  | _, rescue body handle => tryCatch body.run fun f => (handle f).run

/-- Every block enters a scope that was made, and none that is open around it; so a scope of its own for
every block is more than enough. So many scopes were made before the program, and some are open. -/
def IsNested : {α : Type} → Program ρ α → (made : Nat) → (around : List Nat) → Prop
  | _, act a, _, _ => a.Silent
  | _, report _, _, _ => True
  | _, make _ rest, made, around => ∀ n, made ≤ n → (rest n).IsNested (n + 1) around
  | _, block n body, made, around => n < made ∧ n ∉ around ∧ body.IsNested made (n :: around)
  | _, bind first next, made, around =>
    first.IsNested made around ∧ ∀ x, (next x).IsNested made around
  | _, rescue body handle, made, around =>
    body.IsNested made around ∧ ∀ f, (handle f).IsNested made around

theorem IsNested.mono {p : Program ρ α} {made more : Nat} {around : List Nat}
    (h : p.IsNested made around) (hle : made ≤ more) : p.IsNested more around := by
  induction p generalizing made more around with
  | act a => exact h
  | report r => trivial
  | make heading rest ih => exact fun n hn => h n (Nat.le_trans hle hn)
  | block n body ih => exact ⟨Nat.lt_of_lt_of_le h.1 hle, h.2.1, ih h.2.2 hle⟩
  | bind first next ihfirst ihnext => exact ⟨ihfirst h.1 hle, fun x => ihnext x (h.2 x) hle⟩
  | rescue body handle ihbody ihhandle => exact ⟨ihbody h.1 hle, fun f => ihhandle f (h.2 f) hle⟩

theorem IsNested.rest {heading : Option String} {rest : Nat → Program ρ α} {w : World ρ}
    {around : List Nat} (h : (make heading rest).IsNested w.correlation.scopes.length around) :
    (rest w.correlation.scopes.length).IsNested (w.make heading).correlation.scopes.length around := by
  show (rest _).IsNested (w.correlation.make heading).2.scopes.length around
  rw [Correlation.length_make]
  exact h _ Nat.le.refl

theorem IsNested.body {n : Nat} {body : Program ρ α} {w : World ρ} {around : List Nat}
    {s : Correlation.Scope} (h : (block n body).IsNested w.correlation.scopes.length around)
    (hs : w.correlation.scopes[n]? = some s) :
    body.IsNested (w.enter n).correlation.scopes.length (n :: around) := by
  show body.IsNested (w.correlation.enter n).scopes.length (n :: around)
  rw [Correlation.length_enter hs]
  exact h.2.2

/-- Nothing but the body decides how a block ends, and the block restores what its body restores. -/
theorem perform_block {n : Nat} {body : Program ρ α} {w : World ρ} {around : List Nat}
    {s : Correlation.Scope} (hs : w.correlation.scopes[n]? = some s) (hn : n ∉ around)
    (h : Correlation.Restores (n :: around) (w.correlation.enter n)
      (perform body.run (w.enter n)).2.correlation) :
    (perform (block n body).run w).1 = (perform body.run (w.enter n)).1 ∧
      (perform (block n body).run w).2.events = (perform body.run (w.enter n)).2.events ∧
      Correlation.Restores around w.correlation (perform (block n body).run w).2.correlation := by
  rcases hbody : perform body.run (w.enter n) with ⟨r, after⟩
  rw [hbody] at h
  obtain ⟨hleft, hrestores⟩ := h.leave hs hn
  have hblock : perform (block n body).run w = _ := perform_inScope n hbody
  rw [hblock, hleft]
  exact ⟨rfl, rfl, hrestores⟩

/-- Whatever a nested program does and however it ends, the id from before is in force behind it. -/
theorem IsNested.restores {p : Program ρ α} {w : World ρ} {around : List Nat}
    (h : p.IsNested w.correlation.scopes.length around) :
    Correlation.Restores around w.correlation (perform p.run w).2.correlation := by
  induction p generalizing w around with
  | act a =>
    rw [run, (h w).1]
    exact .refl around w.correlation
  | report r =>
    rcases r.perform_log w with ⟨progress, hlog⟩ | ⟨f, hlog⟩
    · rw [run, hlog]
      exact .refl around w.correlation
    · rw [run, hlog]
      exact .refl around w.correlation
  | make heading rest ih =>
    have hrest : (rest w.correlation.scopes.length).IsNested
        (w.make heading).correlation.scopes.length around := h.rest
    exact (Correlation.restores_make around w.correlation heading).trans (ih _ hrest)
  | block n body ih =>
    have hs := List.getElem?_eq_getElem h.1
    exact (perform_block hs h.2.1 (ih (h.body hs))).2.2
  | bind first next ihfirst ihnext =>
    have hfirst := ihfirst h.1
    rw [run, perform_bind]
    rcases hperform : perform first.run w with ⟨_ | x, after⟩
    · rw [hperform] at hfirst
      exact hfirst
    · -- The first part may have made scopes; the second is nested with more of them, too.
      rw [hperform] at hfirst
      exact hfirst.trans (ihnext x ((h.2 x).mono hfirst.length_le))
  | rescue body handle ihbody ihhandle =>
    have hbody := ihbody h.1
    rw [run, perform_tryCatch]
    rcases hperform : perform body.run w with ⟨f | x, after⟩
    · rw [hperform] at hbody
      exact hbody.trans (ihhandle f ((h.2 f).mono hbody.length_le))
    · rw [hperform] at hbody
      exact hbody

/-- A scope that is entered inside itself has no token for its outer end: the block fails, whatever its
body gives, and the scope's id stays in force. -/
theorem perform_block_reentered {n : Nat} {body : Program ρ α} {w : World ρ} {s : Correlation.Scope}
    (hs : w.correlation.scopes[n]? = some s) (h : body.IsNested w.correlation.scopes.length [n]) :
    (perform (block n (block n body)).run w).1 = .error (.fault Correlation.tokenSpent) ∧
      (perform (block n (block n body)).run w).2.correlation.current = some s.id := by
  have hlength : w.correlation.scopes.length = ((w.enter n).enter n).correlation.scopes.length :=
    ((Correlation.length_enter (Correlation.getElem?_enter hs)).trans (Correlation.length_enter hs)).symm
  rw [hlength] at h
  have hbody := h.restores
  rcases hperform : perform body.run ((w.enter n).enter n) with ⟨r, after⟩
  rw [hperform] at hbody
  obtain ⟨hcurrent, hspent⟩ := Correlation.Restores.leave_reentered hs hbody
  have hblock : perform (block n (block n body)).run w = _ :=
    perform_inScope n (perform_inScope n hperform)
  rw [hblock]
  show (Result.ofFault ((after.correlation.leave n).2.leave n).1 >>= fun _ => _) = _ ∧
    ((after.correlation.leave n).2.leave n).2.current = _
  rw [hspent]
  exact ⟨rfl, hcurrent⟩

/-- Where the second part of a sequence starts, the id from before is in force. -/
theorem IsNested.next {first : Program ρ α} {next : α → Program ρ β} {w mid : World ρ} {x : α}
    {around : List Nat} (h : (bind first next).IsNested w.correlation.scopes.length around)
    (hperform : perform first.run w = (.ok x, mid)) :
    (next x).IsNested mid.correlation.scopes.length around ∧
      mid.correlation.current = w.correlation.current := by
  have hfirst := h.1.restores
  rw [hperform] at hfirst
  exact ⟨(h.2 x).mono hfirst.length_le, hfirst.current⟩

/-- Where a failure is rescued, the id from before is in force. -/
theorem IsNested.handle {body : Program ρ α} {handle : Failure → Program ρ α} {w mid : World ρ}
    {f : Failure} {around : List Nat}
    (h : (rescue body handle).IsNested w.correlation.scopes.length around)
    (hperform : perform body.run w = (.error f, mid)) :
    (handle f).IsNested mid.correlation.scopes.length around ∧
      mid.correlation.current = w.correlation.current := by
  have hbody := h.1.restores
  rw [hperform] at hbody
  exact ⟨(h.2 f).mono hbody.length_le, hbody.current⟩

/-! ## Inside a program -/

/-- In a run of `p` from `w` the part `q` is run from `v`, inside the blocks with these ids, the
innermost first. -/
inductive Occurs (q : Program ρ β) (v : World ρ) :
    {α : Type} → Program ρ α → World ρ → List String → Prop where
  | here : Occurs q v q v []
  | made {α : Type} {heading : Option String} {rest : Nat → Program ρ α} {w : World ρ}
      {ids : List String} : Occurs q v (rest w.correlation.scopes.length) (w.make heading) ids →
      Occurs q v (make heading rest) w ids
  | inside {α : Type} {n : Nat} {body : Program ρ α} {w : World ρ} {ids : List String}
      {s : Correlation.Scope} : w.correlation.scopes[n]? = some s → Occurs q v body (w.enter n) ids →
      Occurs q v (block n body) w (ids ++ [s.id])
  | first {α γ : Type} {first : Program ρ γ} {next : γ → Program ρ α} {w : World ρ}
      {ids : List String} : Occurs q v first w ids → Occurs q v (bind first next) w ids
  | next {α γ : Type} {first : Program ρ γ} {next : γ → Program ρ α} {w mid : World ρ} {x : γ}
      {ids : List String} : perform first.run w = (.ok x, mid) → Occurs q v (next x) mid ids →
      Occurs q v (bind first next) w ids
  | tried {α : Type} {body : Program ρ α} {handle : Failure → Program ρ α} {w : World ρ}
      {ids : List String} : Occurs q v body w ids → Occurs q v (rescue body handle) w ids
  | rescued {α : Type} {body : Program ρ α} {handle : Failure → Program ρ α} {w mid : World ρ}
      {f : Failure} {ids : List String} : perform body.run w = (.error f, mid) →
      Occurs q v (handle f) mid ids → Occurs q v (rescue body handle) w ids

theorem Occurs.current {q : Program ρ β} {v : World ρ} {p : Program ρ α} {w : World ρ}
    {ids : List String} (h : q.Occurs v p w ids) {around : List Nat}
    (hp : p.IsNested w.correlation.scopes.length around) :
    v.correlation.current = ids.head?.or w.correlation.current := by
  -- Along the path each block gives its id, and everything else leaves the id as it found it.
  induction h generalizing around with
  | here => rfl
  | made h ih => exact ih hp.rest
  | @inside _ n _ w ids s hs h ih =>
    rw [ih (hp.body hs), World.current_enter hs, List.head?_append, Option.or_assoc]
    rfl
  | first h ih => exact ih hp.1
  | next hperform h ih => rw [ih (hp.next hperform).1, (hp.next hperform).2]
  | tried h ih => exact ih hp.1
  | rescued hperform h ih => rw [ih (hp.handle hperform).1, (hp.handle hperform).2]

def told : Report := ⟨Retry.logger, 20, "told", "pay", .null, .null, []⟩

/-- Inside a scope from before the program one of its own is interrupted; the interruption is rescued
outside of both. -/
def interrupted : Program Unit Unit :=
  rescue
    (block 0 (make none fun n => block n (bind (report told) fun _ => act (throw (.fault .cancelled)))))
    fun _ => report told

end Program

end LedgerClient
