import LedgerClient.Client.Exchange

/-!
# The life of a transport

A transport with connections of its own keeps at most one open: the current one. It is opened by the
first sending that needs it, serves every sending up to the next closing, and is closed there. A
connection that the caller supplied is the only one for ever, and no closing reaches it.
-/

namespace LedgerClient.Transport

/-- What happens to a transport. A sending ends with a response or with a failure. -/
inductive Use where
  | sending (reply : Reply)
  | closing

namespace Use

def isClosing : Use → Bool
  | .sending _ => false
  | .closing => true

end Use

/-- The transport behind a use. A sending takes its connection before its reply is known, so that a
failure leaves what a response leaves. -/
def apply (t : Transport) : Use → Transport
  | .sending _ => t.acquire.2
  | .closing => t.close

/-- The transport behind some uses, one after another. -/
def after (t : Transport) (uses : List Use) : Transport := uses.foldl apply t

/-- The connection appeared and was not closed. -/
def IsOpen (t : Transport) (n : Nat) : Prop := n < t.appeared ∧ n ∉ t.closed

theorem after_cons (t : Transport) (u : Use) (uses : List Use) :
    t.after (u :: uses) = (t.apply u).after uses := rfl

theorem after_append (t : Transport) (uses more : List Use) :
    t.after (uses ++ more) = (t.after uses).after more := List.foldl_append

theorem acquire_of_some {t : Transport} {n : Nat} (h : t.current = some n) : t.acquire = (n, t) := by
  unfold acquire
  rw [h]

theorem acquire_of_none {t : Transport} (h : t.current = none) :
    t.acquire = (t.appeared,
      { t with current := some t.appeared, owned := true, appeared := t.appeared + 1 }) := by
  unfold acquire
  rw [h]

/-- A connection that was taken stays the one to send through. -/
theorem acquire_acquire (t : Transport) : t.acquire.2.acquire = t.acquire :=
  acquire_of_some t.acquire_current

theorem close_of_owned {t : Transport} {n : Nat} (hcurrent : t.current = some n)
    (howned : t.owned = true) : t.close = { t with current := none, closed := n :: t.closed } := by
  unfold close
  rw [hcurrent]
  exact if_pos howned

/-! ## Stretches without a closing, and without a sending -/

theorem acquire_after_sendings {uses : List Use} (h : ∀ u ∈ uses, u.isClosing = false)
    (t : Transport) : (t.after uses).acquire.1 = t.acquire.1 := by
  induction uses generalizing t with
  | nil => rfl
  | cons u rest ih =>
    obtain ⟨hu, hrest⟩ := List.forall_mem_cons.mp h
    cases u with
    | closing => cases hu
    | sending reply =>
      rw [after_cons, ih hrest]
      show t.acquire.2.acquire.1 = t.acquire.1
      rw [acquire_acquire]

theorem close_after_closings {uses : List Use} (h : ∀ u ∈ uses, u.isClosing = true)
    (t : Transport) : t.close.after uses = t.close := by
  induction uses with
  | nil => rfl
  | cons u rest ih =>
    obtain ⟨hu, hrest⟩ := List.forall_mem_cons.mp h
    cases u with
    | sending reply => cases hu
    | closing =>
      rw [after_cons]
      show t.close.close.after rest = t.close
      rw [close_close]
      exact ih hrest

/-! ## A connection of the caller -/

theorem after_supplied (uses : List Use) : supplied.after uses = supplied := by
  induction uses with
  | nil => rfl
  | cons u rest ih =>
    cases u with
    | sending reply => exact ih
    | closing => exact ih

theorem isOpen_supplied {n : Nat} : supplied.IsOpen n ↔ n = 0 := by
  show n < 1 ∧ n ∉ [] ↔ n = 0
  simp

/-! ## Connections of its own -/

/-- Whatever is open is the current connection, and it was opened here. -/
structure Sound (t : Transport) : Prop where
  owned : t.owned = true
  isOpen_iff : ∀ n, t.IsOpen n ↔ t.current = some n
  lt_appeared : ∀ n ∈ t.closed, n < t.appeared

theorem sound_fresh : Sound fresh where
  owned := rfl
  isOpen_iff := fun n => iff_of_false (fun h => Nat.not_lt_zero n h.1) (Option.some_ne_none n).symm
  lt_appeared := List.forall_mem_nil _

namespace Sound

variable {t : Transport}

/-- The new connection has a number that none had before, so it is not among the closed ones. -/
theorem acquire (h : t.Sound) : t.acquire.2.Sound := by
  cases hcurrent : t.current with
  | some n =>
    rw [acquire_of_some hcurrent]
    exact h
  | none =>
    rw [acquire_of_none hcurrent]
    refine ⟨rfl, ?_, fun n hn => Nat.lt_succ_of_lt (h.lt_appeared n hn)⟩
    intro n
    constructor
    · rintro ⟨hlt, hclosed⟩
      have hnot : ¬n < t.appeared := by
        intro hold
        have hopen := (h.isOpen_iff n).mp ⟨hold, hclosed⟩
        rw [hcurrent] at hopen
        cases hopen
      exact congrArg some (Nat.le_antisymm (Nat.not_lt.mp hnot) (Nat.le_of_lt_succ hlt))
    · intro hn
      obtain rfl : t.appeared = n := Option.some.inj hn
      exact ⟨Nat.lt_succ_self _, fun hclosed => Nat.lt_irrefl _ (h.lt_appeared _ hclosed)⟩

theorem close (h : t.Sound) : t.close.Sound := by
  cases hcurrent : t.current with
  | none =>
    rw [close_of_none hcurrent]
    exact h
  | some n =>
    rw [close_of_owned hcurrent h.owned]
    refine ⟨h.owned, ?_, ?_⟩
    · intro m
      refine iff_of_false ?_ (Option.some_ne_none m).symm
      rintro ⟨hlt, hclosed⟩
      obtain ⟨hmn, hrest⟩ := List.ne_and_not_mem_of_not_mem_cons hclosed
      have hopen := (h.isOpen_iff m).mp ⟨hlt, hrest⟩
      rw [hcurrent] at hopen
      exact hmn (Option.some.inj hopen).symm
    · exact List.forall_mem_cons.mpr ⟨((h.isOpen_iff n).mpr hcurrent).1, h.lt_appeared⟩

theorem apply (h : t.Sound) (u : Use) : (t.apply u).Sound := by
  cases u with
  | sending reply => exact h.acquire
  | closing => exact h.close

theorem after (h : t.Sound) (uses : List Use) : (t.after uses).Sound := by
  induction uses generalizing t with
  | nil => exact h
  | cons u rest ih => exact ih (h.apply u)

theorem isOpen_unique (h : t.Sound) {m n : Nat} (hm : t.IsOpen m) (hn : t.IsOpen n) : m = n :=
  Option.some.inj (((h.isOpen_iff m).mp hm).symm.trans ((h.isOpen_iff n).mp hn))

/-- What is sent next goes through a connection that is open. -/
theorem isOpen_acquire (h : t.Sound) : t.acquire.2.IsOpen t.acquire.1 :=
  (h.acquire.isOpen_iff _).mpr t.acquire_current

theorem current_close (h : t.Sound) : t.close.current = none := by
  cases hcurrent : t.current with
  | none => rw [close_of_none hcurrent, hcurrent]
  | some n => rw [close_of_owned hcurrent h.owned]

theorem not_isOpen_close (h : t.Sound) (n : Nat) : ¬t.close.IsOpen n := by
  rw [h.close.isOpen_iff, h.current_close]
  exact (Option.some_ne_none n).symm

theorem close_eq_self (h : t.Sound) (hnone : ∀ n, ¬t.IsOpen n) : t.close = t := by
  refine close_of_none (Option.eq_none_iff_forall_ne_some.mpr ?_)
  intro n hn
  exact hnone n ((h.isOpen_iff n).mpr hn)

end Sound

end LedgerClient.Transport
