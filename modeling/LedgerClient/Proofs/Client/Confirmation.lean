import LedgerClient.Client.Queries
import LedgerClient.Proofs.Client.Outcome
import LedgerClient.Proofs.Confirmation

/-!
# Waiting for a confirmation

Each round looks a transaction up by its hash. As long as it is found outside a checkpoint, another
round follows behind one pause, until the attempts are used up; once it is found in a checkpoint its
receipt is asked for, and that ends the waiting. A request that fails ends it with its own failure.
-/

namespace LedgerClient

open LedgerClient.Action

/-! ## Included transactions -/

/-- The entries name a checkpoint. -/
def HasCheckpoint (entries : List (Value × Value)) : Prop :=
  ∃ v, Value.lookup "checkpoint_number" entries = some v ∧ v ≠ .null

theorem Response.isSome_of_optionalWord {entries : List (Value × Value)} {n : Option Nat}
    (h : Response.optionalWord (.dict entries) "checkpoint_number" = .ok n) :
    n.isSome = true ↔ HasCheckpoint entries := by
  have hread : Response.absentOr Response.word
      ((Value.lookup "checkpoint_number" entries).getD .null) = .ok n := h
  unfold HasCheckpoint
  cases hlookup : Value.lookup "checkpoint_number" entries with
  | none =>
    rw [hlookup] at hread
    cases hread
    refine iff_of_false Bool.false_ne_true ?_
    rintro ⟨_, hv, -⟩
    exact Option.some_ne_none _ hv.symm
  | some v =>
    rw [hlookup, Option.getD_some, Response.absentOr] at hread
    cases v with
    | null =>
      cases hread
      refine iff_of_false Bool.false_ne_true ?_
      rintro ⟨_, hv, hne⟩
      cases hv
      exact hne rfl
    | _ =>
      obtain ⟨k, -, hk⟩ := bind_eq_ok.mp hread
      cases hk
      exact iff_of_true rfl ⟨_, rfl, Value.noConfusion⟩

/-- What is read as a transaction is a dictionary, and the transaction is included exactly when the
dictionary names a checkpoint. -/
theorem Transaction.isIncluded_iff {data : Value} {t : Transaction}
    (h : Transaction.ofValue data = .ok t) :
    ∃ entries, data = .dict entries ∧ (t.isIncluded = true ↔ HasCheckpoint entries) := by
  rw [Transaction.ofValue, Response.shaped_eq_ok] at h
  simp only [bind_eq_ok, pure_eq_ok] at h
  obtain ⟨_, hhash, -, -, -, -, -, -, -, -, -, -, -, -, -, -, -, -, -, -, -, -, -, -, -, -, -, -, -, -,
    -, -, n, hnumber, -, -, rfl⟩ := h
  obtain ⟨entries, rfl⟩ := Response.eq_dict_of_require hhash
  exact ⟨entries, rfl, Response.isSome_of_optionalWord hnumber⟩

/-- The error of a waiting whose attempts are used up. -/
def Failure.IsNotConfirmed : Failure → Prop
  | .client (.confirmationTimeout ..) => True
  | _ => False

namespace Client

/-! ## One round -/

variable {c : Client} {hash : String} {reply : Reply}

/-- The URL of a query by hash. -/
def hashUrl (c : Client) (path hash : String) : String :=
  c.config.urlFor path ++
    String.ofList ('?' :: Url.joinPairs [(Url.quoteText "hash", Url.quoteText hash)])

def lookupUrl (c : Client) (hash : String) : String := c.hashUrl "/transactions/by_hash" hash

def receiptUrl (c : Client) (hash : String) : String := c.hashUrl "/transactions/receipt/by_hash" hash

/-- The query for the transaction. -/
def lookup (c : Client) (hash : String) : Event := .request (c.outgoing "GET" (c.lookupUrl hash) none)

/-- The query for its receipt. -/
def receiptQuery (c : Client) (hash : String) : Event :=
  .request (c.outgoing "GET" (c.receiptUrl hash) none)

/-- The transaction that a reply is. -/
def found (c : Client) (hash : String) (reply : Reply) : Result Transaction :=
  c.reading (c.lookupUrl hash) reply >>= Transaction.ofValue

/-- The receipt that a reply is. -/
def settled (c : Client) (hash : String) (reply : Reply) : Result TransactionReceipt :=
  c.reading (c.receiptUrl hash) reply >>= TransactionReceipt.ofValue

/-- The reply is a transaction that names a checkpoint. -/
def IsIncluded (c : Client) (hash : String) (reply : Reply) : Prop :=
  ∃ entries t, c.reading (c.lookupUrl hash) reply = .ok (.dict entries) ∧
    Transaction.ofValue (.dict entries) = .ok t ∧ HasCheckpoint entries

/-- The reply is a transaction that names no checkpoint. -/
def IsPending (c : Client) (hash : String) (reply : Reply) : Prop :=
  ∃ entries t, c.reading (c.lookupUrl hash) reply = .ok (.dict entries) ∧
    Transaction.ofValue (.dict entries) = .ok t ∧ ¬HasCheckpoint entries

/-- What the entries of a reply say about a checkpoint is what its transaction says. -/
theorem exists_entries_iff_found (holds : Prop → Prop) :
    (∃ entries t, c.reading (c.lookupUrl hash) reply = .ok (.dict entries) ∧
      Transaction.ofValue (.dict entries) = .ok t ∧ holds (HasCheckpoint entries)) ↔
      ∃ t, c.found hash reply = .ok t ∧ holds (t.isIncluded = true) := by
  constructor
  · rintro ⟨entries, t, hread, ht, hholds⟩
    obtain ⟨_, hentries, hiff⟩ := Transaction.isIncluded_iff ht
    cases hentries
    refine ⟨t, bind_eq_ok.mpr ⟨_, hread, ht⟩, ?_⟩
    rwa [hiff]
  · rintro ⟨t, h, hholds⟩
    obtain ⟨data, hread, ht⟩ := bind_eq_ok.mp h
    obtain ⟨entries, rfl, hiff⟩ := Transaction.isIncluded_iff ht
    refine ⟨entries, t, hread, ht, ?_⟩
    rwa [← hiff]

theorem isIncluded_iff_found :
    c.IsIncluded hash reply ↔ ∃ t, c.found hash reply = .ok t ∧ t.isIncluded = true :=
  exists_entries_iff_found fun included => included

theorem isPending_iff_found :
    c.IsPending hash reply ↔ ∃ t, c.found hash reply = .ok t ∧ ¬t.isIncluded = true :=
  exists_entries_iff_found Not

theorem IsPending.not_isIncluded (h : c.IsPending hash reply) : ¬c.IsIncluded hash reply := by
  intro hincluded
  obtain ⟨t, hfound, hpending⟩ := isPending_iff_found.mp h
  obtain ⟨t', hfound', hin⟩ := isIncluded_iff_found.mp hincluded
  obtain rfl : t = t' := Except.ok.inj (hfound.symm.trans hfound')
  exact hpending hin

theorem IsPending.found_ne_error {f : Failure} (h : c.IsPending hash reply) :
    c.found hash reply ≠ .error f := by
  obtain ⟨t, hfound, -⟩ := isPending_iff_found.mp h
  rw [hfound]
  exact error_ne_ok.symm

theorem IsIncluded.found_ne_error {f : Failure} (h : c.IsIncluded hash reply) :
    c.found hash reply ≠ .error f := by
  obtain ⟨t, hfound, -⟩ := isIncluded_iff_found.mp h
  rw [hfound]
  exact error_ne_ok.symm

section

variable (hhooks : c.hooks = []) (w : World Reply)

include hhooks

theorem course_transaction (hash : String) :
    Course (c.transaction (.text hash)) w (c.found hash (nextReply w.answers)) [c.lookup hash]
      w.answers.tail :=
  (course_request hhooks rfl rfl w).bind_ofResult Transaction.ofValue

theorem course_receipt (hash : String) :
    Course (c.receipt (.text hash)) w (c.settled hash (nextReply w.answers)) [c.receiptQuery hash]
      w.answers.tail :=
  (course_request hhooks rfl rfl w).bind_ofResult TransactionReceipt.ofValue

theorem course_status_of_error {f : Failure} (h : c.found hash (nextReply w.answers) = .error f) :
    Course (c.status (.text hash)) w (.error f) [c.lookup hash] w.answers.tail := by
  have hlookup := course_transaction hhooks w hash
  rw [h] at hlookup
  exact hlookup.bind_error _

/-- Outside a checkpoint no receipt is asked for. -/
theorem course_status_of_pending {t : Transaction} (h : c.found hash (nextReply w.answers) = .ok t)
    (hpending : ¬t.isIncluded = true) :
    Course (c.status (.text hash)) w (.ok .pending) [c.lookup hash] w.answers.tail := by
  have hlookup := course_transaction hhooks w hash
  rw [h] at hlookup
  refine hlookup.bind_quiet fun after => ?_
  simp only [hpending]
  exact course_pure _ after

/-- In a checkpoint the receipt decides. -/
theorem course_status_of_included {t : Transaction} (h : c.found hash (nextReply w.answers) = .ok t)
    (hincluded : t.isIncluded = true) :
    Course (c.status (.text hash)) w
      (c.settled hash (nextReply w.answers.tail) >>= fun receipt => .ok receipt.status)
      [c.lookup hash, c.receiptQuery hash] w.answers.tail.tail := by
  have hlookup := course_transaction hhooks w hash
  rw [h] at hlookup
  show Course _ w _ ([c.lookup hash] ++ [c.receiptQuery hash]) _
  refine hlookup.bind fun after hafter _ => ?_
  simp only [hincluded, if_true]
  rw [← hafter]
  exact (course_receipt hhooks after hash).bind_ofResult fun receipt => .ok receipt.status

end

/-- A hash with a lone surrogate has no URL, so nothing is asked for. -/
theorem course_status_of_torn (c : Client) (t : Torn) (w : World Reply) :
    Course (c.status (.torn t)) w (.error (.fault .unencodable)) [] w.answers := by
  have hurl : c.config.requestUrl (.text "/transactions/by_hash") (Value.record [("hash", .torn t)]) =
      .error .unencodable := rfl
  exact (((leaves_request_of_unwritable (.inl hurl)).bind_error _).course w).bind_error _

theorem orderly_status (c : Client) (hash : Value) : Orderly (c.status hash) := by
  refine Orderly.bind ((c.orderly_request _ _ _ _).bind fun _ => orderly_ofResult _) fun t => ?_
  split
  · exact Orderly.bind ((c.orderly_request _ _ _ _).bind fun _ => orderly_ofResult _)
      fun receipt => orderly_pure _
  · exact orderly_pure _

/-! ## Requests and the error of a waiting -/

/-- A request fails with this error only when the transport does. -/
theorem failsOnly_reading (c : Client) (url : String) (reply : Reply) :
    FailsOnly (fun f => f.IsNotConfirmed → reply = .failure f) (c.reading url reply) := by
  cases reply with
  | failure why =>
    cases why with
    | client e => exact .error fun _ => rfl
    | fault f =>
      show FailsOnly _ (c.unanswered url (.fault f))
      unfold unanswered
      simp only
      split
      · exact .error fun h => h.elim
      · unfold ErrorMapping.ofTransport
        split
        · cases ErrorMapping.timeoutText (some c.config.timeout) with
          | error g => exact .error fun h => h.elim
          | ok seconds => exact .error fun h => h.elim
        · exact .error fun h => h.elim
        · exact .error fun h => h.elim
  | response status raw =>
    show FailsOnly _ (answered status raw url)
    unfold answered
    split
    · unfold Response.parseBody
      simp only
      split
      · exact .ok _
      · exact .error fun h => h.elim
      · exact .error fun h => h.elim
    · by_cases hdeep : Json.read (Text.ofUtf8 raw) = .error .tooDeep
      · rw [ErrorMapping.ofResponse_of_nested status raw url hdeep]
        exact .error fun h => h.elim
      · obtain ⟨code, message, -, hmap⟩ := ErrorMapping.exists_ofResponse status raw url hdeep
        rw [hmap]
        cases Value.integerText status with
        | error g => exact .error fun h => h.elim
        | ok shown => exact .error fun h => h.elim

theorem reading_bind_eq_notConfirmed_iff {α : Type} {url : String} {read : Value → Result α}
    (hread : ∀ data, FailsOnly Failure.IsWrongShape (read data)) {e : ClientError}
    (he : Failure.IsNotConfirmed (.client e)) :
    (c.reading url reply >>= read) = .error (.client e) ↔ reply = .failure (.client e) := by
  constructor
  · intro h
    refine FailsOnly.bind (failsOnly_reading c url reply) (fun data _ => ?_) _ h he
    refine (hread data).mono fun f hf hconfirmed => ?_
    obtain ⟨typeName, why, underlying, rfl⟩ := hf
    exact hconfirmed.elim
  · rintro rfl
    rfl

/-! ## The end of a waiting -/

/-- How a waiting ends, by the replies from its last query on. Its attempts are used up when there is
no more than this one. -/
inductive Ending (c : Client) (hash : String) (timeout : ClientError) (isLast : Prop)
    (script : List Reply) : Result TransactionStatus → List Event → List Reply → Prop where
  /-- The query failed. -/
  | failed {f : Failure} (h : c.found hash (nextReply script) = .error f) :
      Ending c hash timeout isLast script (.error f) [c.lookup hash] script.tail
  /-- The query for the receipt failed. -/
  | unsettled {f : Failure} (hincluded : c.IsIncluded hash (nextReply script))
      (h : c.settled hash (nextReply script.tail) = .error f) :
      Ending c hash timeout isLast script (.error f) [c.lookup hash, c.receiptQuery hash]
        script.tail.tail
  | settled {receipt : TransactionReceipt} (hincluded : c.IsIncluded hash (nextReply script))
      (h : c.settled hash (nextReply script.tail) = .ok receipt) :
      Ending c hash timeout isLast script (.ok receipt.status)
        [c.lookup hash, c.receiptQuery hash] script.tail.tail
  /-- The transaction is still in no checkpoint. -/
  | timedOut (hpending : c.IsPending hash (nextReply script)) (hlast : isLast) :
      Ending c hash timeout isLast script (.error (.client timeout)) [c.lookup hash] script.tail

variable {timeout : ClientError} {isLast : Prop} {script rest : List Reply}
  {r : Result TransactionStatus} {acts : List Event}

/-- A status is the result exactly when the transaction is included and its receipt has that status. -/
theorem Ending.eq_ok_iff (h : Ending c hash timeout isLast script r acts rest)
    (s : TransactionStatus) : r = .ok s ↔ c.IsIncluded hash (nextReply script) ∧
      ∃ receipt, c.settled hash (nextReply script.tail) = .ok receipt ∧ receipt.status = s := by
  cases h with
  | failed h =>
    refine iff_of_false error_ne_ok ?_
    rintro ⟨hincluded, -⟩
    exact hincluded.found_ne_error h
  | unsettled hincluded h =>
    refine iff_of_false error_ne_ok ?_
    rintro ⟨-, receipt, hreceipt, -⟩
    cases hreceipt.symm.trans h
  | settled hincluded h =>
    constructor
    · intro hr
      exact ⟨hincluded, _, h, Except.ok.inj hr⟩
    · rintro ⟨-, receipt, hreceipt, rfl⟩
      cases hreceipt.symm.trans h
      rfl
  | timedOut hpending hlast =>
    refine iff_of_false error_ne_ok ?_
    rintro ⟨hincluded, -⟩
    exact hpending.not_isIncluded hincluded

/-- When the last lookup finds the transaction pending, the attempts are used up. -/
theorem Ending.of_isPending (h : Ending c hash timeout isLast script r acts rest)
    (hpending : c.IsPending hash (nextReply script)) : isLast ∧ r = .error (.client timeout) := by
  cases h with
  | failed h => exact absurd h hpending.found_ne_error
  | unsettled hincluded h => exact absurd hincluded hpending.not_isIncluded
  | settled hincluded h => exact absurd hincluded hpending.not_isIncluded
  | timedOut _ hlast => exact ⟨hlast, rfl⟩

/-- A waiting fails with its error exactly when its attempts are used up, or when the transport failed
with that very error. -/
theorem Ending.eq_timeout_iff (h : Ending c hash timeout isLast script r acts rest)
    (htimeout : Failure.IsNotConfirmed (.client timeout)) :
    r = .error (.client timeout) ↔ (c.IsPending hash (nextReply script) ∧ isLast) ∨
      nextReply script = .failure (.client timeout) ∨
      c.IsIncluded hash (nextReply script) ∧
        nextReply script.tail = .failure (.client timeout) := by
  rw [← reading_bind_eq_notConfirmed_iff Transaction.failsOnly_ofValue htimeout,
    ← reading_bind_eq_notConfirmed_iff TransactionReceipt.failsOnly_ofValue htimeout]
  show _ ↔ _ ∨ c.found hash _ = _ ∨ _ ∧ c.settled hash _ = _
  cases h with
  | failed h =>
    rw [h, Except.error.injEq, Except.error.injEq]
    constructor
    · exact fun hr => .inr (.inl hr)
    · rintro (⟨hpending, -⟩ | hr | ⟨hincluded, -⟩)
      · exact absurd h hpending.found_ne_error
      · exact hr
      · exact absurd h hincluded.found_ne_error
  | unsettled hincluded h =>
    rw [h, Except.error.injEq, Except.error.injEq]
    constructor
    · exact fun hr => .inr (.inr ⟨hincluded, hr⟩)
    · rintro (⟨hpending, -⟩ | hr | ⟨-, hr⟩)
      · exact absurd hincluded hpending.not_isIncluded
      · exact absurd hr hincluded.found_ne_error
      · exact hr
  | settled hincluded h =>
    refine iff_of_false error_ne_ok.symm ?_
    rintro (⟨hpending, -⟩ | hr | ⟨-, hr⟩)
    · exact hpending.not_isIncluded hincluded
    · exact hincluded.found_ne_error hr
    · cases h.symm.trans hr
  | timedOut hpending hlast => exact iff_of_true rfl (.inl ⟨hpending, hlast⟩)

/-- The queries and pauses of rounds that found the transaction pending. -/
def rounds (c : Client) (hash : String) (pause : Value) (m : Nat) : List Event :=
  (List.replicate m [c.lookup hash, .sleep pause]).flatten

variable {pause : Value} {n : Nat}

theorem rounds_succ_append (m : Nat) (acts : List Event) :
    c.rounds hash pause (m + 1) ++ acts =
      [c.lookup hash] ++ ([.sleep pause] ++ (c.rounds hash pause m ++ acts)) := rfl

open Confirmation (Watch concluded expired)

/-- A round that does not find the transaction pending ends the waiting. -/
theorem exists_ending (hhooks : c.hooks = []) (hbound : n < Integer.textBound)
    (timeout : ClientError) (isLast : Prop) {script : List Reply}
    (h : ¬c.IsPending hash (nextReply script)) :
    ∃ r acts rest,
      Ending c hash timeout isLast script (r >>= concluded (.error (.client timeout))) acts rest ∧
      ∀ operation (w : World Reply) (done left : Nat), w.answers = script → done + (left + 1) ≤ n →
        Course ((Watch.counted hash n pause operation).poll c.status done (left + 1)) w r acts
          rest := by
  cases hfound : c.found hash (nextReply script) with
  | error f =>
    refine ⟨.error f, _, _, .failed hfound, ?_⟩
    rintro operation w done left rfl -
    exact Watch.course_poll_of_error (course_status_of_error hhooks w hfound)
  | ok t =>
    have hincluded : t.isIncluded = true := by
      by_contra hnot
      exact h (isPending_iff_found.mpr ⟨t, hfound, hnot⟩)
    have hin := isIncluded_iff_found.mpr ⟨t, hfound, hincluded⟩
    cases hsettled : c.settled hash (nextReply script.tail) with
    | error f =>
      refine ⟨.error f, _, _, .unsettled hin hsettled, ?_⟩
      rintro operation w done left rfl -
      have hstatus := course_status_of_included hhooks w hfound hincluded
      rw [hsettled] at hstatus
      exact Watch.course_poll_of_error hstatus
    | ok receipt =>
      refine ⟨.ok (some receipt.status), _, _, .settled hin hsettled, ?_⟩
      rintro operation w done left rfl hdone
      have hstatus := course_status_of_included hhooks w hfound hincluded
      rw [hsettled] at hstatus
      exact Watch.course_poll_of_final hbound hdone hstatus receipt.status_isTerminal

/-- A round that finds it pending is followed by the others, behind a pause if there are any. -/
theorem course_pending_round (hhooks : c.hooks = []) (hbound : n < Integer.textBound)
    {operation : String} {done left : Nat} (hdone : done + (left + 1) ≤ n) {w : World Reply}
    (h : c.IsPending hash (nextReply w.answers)) (hsleep : w.interruptedSleep = none)
    {r : Result (Option TransactionStatus)} {acts : List Event} {rest : List Reply}
    (hrest : ∀ after : World Reply, after.answers = w.answers.tail → after.interruptedSleep = none →
      Course ((Watch.counted hash n pause operation).poll c.status (done + 1) left) after r acts
        rest) :
    Course ((Watch.counted hash n pause operation).poll c.status done (left + 1)) w r
      ([c.lookup hash] ++ ((if 0 < left then [.sleep pause] else []) ++ acts)) rest := by
  obtain ⟨t, hfound, hpending⟩ := isPending_iff_found.mp h
  exact Watch.course_poll_of_pending hbound hdone (course_status_of_pending hhooks w hfound hpending)
    (c.orderly_status _) rfl hsleep hrest

/-- The rounds that are left, by induction on their number: after some that found the transaction
pending, the waiting ends. -/
theorem exists_course_poll (hhooks : c.hooks = []) (hbound : n < Integer.textBound) (hash : String)
    (pause : Value) (timeout : ClientError) (left done : Nat) (script : List Reply)
    (hdone : done + (left + 1) ≤ n) :
    ∃ m r acts rest, m ≤ left ∧ (∀ i < m, c.IsPending hash (nextReply (script.drop i))) ∧
      Ending c hash timeout (m = left) (script.drop m) (r >>= concluded (.error (.client timeout)))
        acts rest ∧
      ∀ operation (w : World Reply), w.answers = script → w.interruptedSleep = none →
        Course ((Watch.counted hash n pause operation).poll c.status done (left + 1)) w r
          (c.rounds hash pause m ++ acts) rest := by
  -- A pending round uses up one attempt and one reply, so both vary along the induction.
  induction left generalizing done script with
  | zero =>
    by_cases hpending : c.IsPending hash (nextReply script)
    · refine ⟨0, .ok none, _, _, Nat.le.refl, fun i hi => absurd hi (Nat.not_lt_zero i),
        .timedOut hpending rfl, ?_⟩
      rintro operation w rfl hsleep
      refine course_pending_round hhooks hbound hdone hpending hsleep fun after hafter _ => ?_
      rw [List.drop_zero, ← hafter]
      exact course_pure none after
    · obtain ⟨r, acts, rest, hending, hcourse⟩ :=
        exists_ending hhooks hbound timeout (0 = 0) hpending
      exact ⟨0, r, acts, rest, Nat.le.refl, fun i hi => absurd hi (Nat.not_lt_zero i), hending,
        fun operation w hw _ => hcourse operation w done 0 hw hdone⟩
  | succ left ih =>
    by_cases hpending : c.IsPending hash (nextReply script)
    · obtain ⟨m, r, acts, rest, hm, hall, hending, hcourse⟩ := ih (done + 1) script.tail (by omega)
      rw [List.drop_tail] at hending
      refine ⟨m + 1, r, acts, rest, Nat.succ_le_succ hm, ?_, ?_, ?_⟩
      · intro i hi
        cases i with
        | zero => exact hpending
        | succ i =>
          rw [← List.drop_tail]
          exact hall i (Nat.lt_of_succ_lt_succ hi)
      · rw [Nat.add_right_cancel_iff]
        exact hending
      · rintro operation w rfl hsleep
        rw [rounds_succ_append]
        exact course_pending_round hhooks hbound hdone hpending hsleep (hcourse operation)
    · obtain ⟨r, acts, rest, hending, hcourse⟩ :=
        exists_ending hhooks hbound timeout (0 = left + 1) hpending
      exact ⟨0, r, acts, rest, Nat.zero_le _, fun i hi => absurd hi (Nat.not_lt_zero i), hending,
        fun operation w hw _ => hcourse operation w done (left + 1) hw hdone⟩

theorem course_awaitConfirmation (hash : Script) {attempts interval limit : Value} {w : World Reply}
    (hlimit : givenOr attempts c.config.pollAttempts = .ok limit)
    (hpause : givenOr interval c.config.pollInterval = .ok pause)
    (h : ∀ after : World Reply, after.answers = w.answers →
      after.interruptedSleep = w.interruptedSleep →
      Course (Confirmation.await c.status hash.toValue limit pause) after r acts rest) :
    Course (c.awaitConfirmation hash.toValue attempts interval) w r acts rest := by
  unfold awaitConfirmation
  rw [hlimit, hpause]
  refine Course.after_leaves (leaves_pure limit) fun limited hlimited hlimitedSleep => ?_
  refine Course.after_leaves (leaves_pure pause) fun paused hpaused hpausedSleep => ?_
  exact h paused (hpaused.trans hlimited) (hpausedSleep.trans hlimitedSleep)

/-- A waiting for a hash that has no URL ends before anything is asked for. -/
theorem course_awaitConfirmation_of_torn (t : Torn) {attempts interval : Value}
    (hlimit : givenOr attempts c.config.pollAttempts = .ok (.int n))
    (hpause : givenOr interval c.config.pollInterval = .ok pause) (hpos : 1 ≤ n)
    (hnonneg : pause.isBelow 0 = .ok false) (w : World Reply) :
    Course (c.awaitConfirmation (.torn t) attempts interval) w (.error (.fault .unencodable)) []
      w.answers := by
  obtain ⟨left, rfl⟩ : ∃ left, n = left + 1 := ⟨n - 1, by omega⟩
  refine course_awaitConfirmation (.torn t) hlimit hpause fun checked hchecked _ => ?_
  refine Confirmation.course_await (r := .error (.fault .unencodable)) (c.orderly_status _) hpos hnonneg
    fun operation start hstart _ => ?_
  rw [← hchecked, ← hstart]
  exact (Watch.course_poll_of_error (c.course_status_of_torn t start)).bind_error _

/-- A waiting looks the transaction up, once more behind each pause as long as it is pending and
attempts are left, and ends with the first lookup that finds it otherwise: with the failure of a
request, with the status of the receipt, or with its own error when the attempts are used up. A hash with
a lone surrogate is not looked up at all. -/
theorem awaitConfirmation_course {c : Client} (hhooks : c.hooks = []) (hash : String)
    {attempts interval pause : Value} {n : Nat}
    (hlimit : givenOr attempts c.config.pollAttempts = .ok (.int n))
    (hpause : givenOr interval c.config.pollInterval = .ok pause) (hpos : 1 ≤ n)
    (hbound : n < Integer.textBound) (hnonneg : pause.isBelow 0 = .ok false)
    (hshown : ∃ text, pause.display = .ok text) (w : World Reply) (hsleep : w.interruptedSleep = none) :
    ∃ timeout, ClientError.notConfirmed (.text hash) (.int n) pause = .ok timeout ∧
      ∃ m r acts rest, m < n ∧ (∀ i < m, c.IsPending hash (nextReply (w.answers.drop i))) ∧
        Ending c hash timeout (m + 1 = n) (w.answers.drop m) r acts rest ∧
        Course (c.awaitConfirmation (.text hash) attempts interval) w r
          (c.rounds hash pause m ++ acts) rest ∧
        (∀ s, r = .ok s ↔ c.IsIncluded hash (nextReply (w.answers.drop m)) ∧
          ∃ receipt, c.settled hash (nextReply (w.answers.drop (m + 1))) = .ok receipt ∧
            receipt.status = s) ∧
        (r = .error (.client timeout) ↔ (∀ i < n, c.IsPending hash (nextReply (w.answers.drop i))) ∨
          nextReply (w.answers.drop m) = .failure (.client timeout) ∨
          c.IsIncluded hash (nextReply (w.answers.drop m)) ∧
            nextReply (w.answers.drop (m + 1)) = .failure (.client timeout)) ∧
        ∀ t : Torn, Course (c.awaitConfirmation (.torn t) attempts interval) w
          (.error (.fault .unencodable)) [] w.answers := by
  obtain ⟨timeout, htimeout, hconfirmed⟩ : ∃ timeout,
      ClientError.notConfirmed (.text hash) (.int n) pause = .ok timeout ∧
        Failure.IsNotConfirmed (.client timeout) := by
    obtain ⟨text, htext⟩ := hshown
    have hlimitText : (Value.int n).display = .ok (Integer.decimal n) := Value.integerText_of_lt hbound
    rw [ClientError.notConfirmed, hlimitText, htext]
    exact ⟨_, rfl, trivial⟩
  have hexpired : expired hash n pause = .error (.client timeout) := by
    rw [expired, Script.toValue, htimeout]
    rfl
  obtain ⟨left, rfl⟩ : ∃ left, n = left + 1 := ⟨n - 1, by omega⟩
  obtain ⟨m, final, acts, rest, hm, hall, hending, hpoll⟩ :=
    exists_course_poll hhooks hbound hash pause timeout left 0 w.answers (by omega)
  rw [← Nat.add_right_cancel_iff (n := 1)] at hending
  have hcourse : Course (c.awaitConfirmation (.text hash) attempts interval) w
      (final >>= concluded (.error (.client timeout))) (c.rounds hash pause m ++ acts) rest := by
    refine course_awaitConfirmation hash hlimit hpause fun checked hchecked hcheckedSleep => ?_
    rw [← hexpired]
    refine Confirmation.course_await (c.orderly_status _) hpos hnonneg
      fun operation start hstart hstartSleep => ?_
    exact Confirmation.course_rounds hbound operation (hpoll operation start
      (hstart.trans hchecked) ((hstartSleep.trans hcheckedSleep).trans hsleep))
  refine ⟨timeout, htimeout, m, _, acts, rest, Nat.lt_succ_of_le hm, hall, hending, hcourse, ?_, ?_,
    fun t => course_awaitConfirmation_of_torn t hlimit hpause hpos hnonneg w⟩
  · intro s
    rw [← List.tail_drop]
    exact hending.eq_ok_iff s
  · rw [← List.tail_drop, hending.eq_timeout_iff hconfirmed]
    refine or_congr_left ?_
    constructor
    · rintro ⟨hlast, hused⟩ i hi
      rcases Nat.lt_or_ge i m with hlt | hge
      · exact hall i hlt
      · obtain rfl : i = m := by omega
        exact hlast
    · intro hpending
      have hlast := hpending m (Nat.lt_succ_of_le hm)
      exact ⟨hlast, (hending.of_isPending hlast).1⟩

/-! ## Waiting with and without a limit that can be shown -/

/-- The zero address in text. -/
def origin : String := "0x0000000000000000000000000000000000000000"

/-- A transaction in this checkpoint. -/
def recorded (checkpoint : Value) : Value :=
  Value.record [("hash", .text "0xab"), ("chain_id", .int 1), ("from", .text origin),
    ("nonce", .int 0), ("signature", Value.record [("r", .int 1), ("s", .int 1), ("v", .int 27)]),
    ("checkpoint_number", checkpoint)]

/-- The receipt of a transaction that succeeded. -/
def successful : Value :=
  Value.record [("success", .bool true), ("fee_used", .int 1), ("transaction_hash", .text "0xab"),
    ("from", .text origin)]

theorem plain_recorded {checkpoint : Value} (h : Json.Plain 1 checkpoint) :
    Json.Plain 2 (recorded checkpoint) := by
  have hone {levels : Nat} : Json.Plain levels (.int 1) := .int (Integer.lt_textBound (by decide))
  have hsignature : Json.Plain 1 (Value.record [("r", .int 1), ("s", .int 1), ("v", .int 27)]) := by
    refine .record (by decide : ["r", "s", "v"].Nodup) ?_
    simp only [List.forall_mem_cons]
    exact ⟨hone, hone, .int (Integer.lt_textBound (by decide)), List.forall_mem_nil _⟩
  refine .record (by decide : ["hash", "chain_id", "from", "nonce", "signature",
    "checkpoint_number"].Nodup) ?_
  simp only [List.forall_mem_cons]
  exact ⟨.text _, hone, .text _, .int (Integer.lt_textBound (by decide)), hsignature, h,
    List.forall_mem_nil _⟩

theorem plain_successful : Json.Plain 1 successful := by
  refine .record (by decide : ["success", "fee_used", "transaction_hash", "from"].Nodup) ?_
  simp only [List.forall_mem_cons]
  exact ⟨.bool _, .int (Integer.lt_textBound (by decide)), .text _, .text _,
    List.forall_mem_nil _⟩

theorem found_recorded {checkpoint : Value} (h : Json.Plain 1 checkpoint) :
    (loopback (.int 30)).found "0xab" (telling (recorded checkpoint)) =
      Transaction.ofValue (recorded checkpoint) := by
  rw [found, reading_telling _ _ (plain_recorded h) (by decide)]
  rfl

theorem isPending_recorded : (loopback (.int 30)).IsPending "0xab" (telling (recorded .null)) := by
  have heval : (Transaction.ofValue (recorded .null)).toOption.map Transaction.isIncluded =
      some false := by decide +kernel
  obtain ⟨t, ht, hpending⟩ := exists_of_toOption_map heval
  exact isPending_iff_found.mpr
    ⟨t, (found_recorded .null).trans ht, Bool.eq_false_iff.mp hpending⟩

theorem isIncluded_recorded :
    (loopback (.int 30)).IsIncluded "0xab" (telling (recorded (.int 7))) := by
  have heval : (Transaction.ofValue (recorded (.int 7))).toOption.map Transaction.isIncluded =
      some true := by decide +kernel
  obtain ⟨t, ht, hincluded⟩ := exists_of_toOption_map heval
  have hfound : (loopback (.int 30)).found "0xab" (telling (recorded (.int 7))) =
      Transaction.ofValue (recorded (.int 7)) :=
    found_recorded (.int (Integer.lt_textBound (by decide)))
  exact isIncluded_iff_found.mpr ⟨t, hfound.trans ht, hincluded⟩

theorem exists_settled_successful : ∃ receipt,
    (loopback (.int 30)).settled "0xab" (telling successful) = .ok receipt ∧
      receipt.status = .confirmed := by
  have heval : (TransactionReceipt.ofValue successful).toOption.map TransactionReceipt.status =
      some .confirmed := by decide +kernel
  obtain ⟨receipt, hreceipt, hstatus⟩ := exists_of_toOption_map heval
  refine ⟨receipt, ?_, hstatus⟩
  rw [settled, reading_telling _ _ plain_successful (by decide)]
  exact hreceipt

/-- The transaction is pending at first; behind one pause it is found in a checkpoint, and its receipt
tells that it succeeded. -/
theorem awaitConfirmation_second :
    Course ((loopback (.int 30)).awaitConfirmation (.text "0xab") (.int 2) (.int 1))
      (.start [telling (recorded .null), telling (recorded (.int 7)), telling successful] none)
      (.ok .confirmed)
      [(loopback (.int 30)).lookup "0xab", .sleep (.int 1), (loopback (.int 30)).lookup "0xab",
        (loopback (.int 30)).receiptQuery "0xab"] [] := by
  have hlimit : givenOr (.int 2) (loopback (.int 30)).config.pollAttempts = .ok (.int (2 : Nat)) := rfl
  have hpause : givenOr (.int 1) (loopback (.int 30)).config.pollInterval = .ok (.int 1) := rfl
  have hshown : ∃ text, (Value.int 1).display = .ok text :=
    ⟨_, Value.integerText_of_lt (Integer.lt_textBound (by decide))⟩
  obtain ⟨timeout, -, m, r, acts, rest, hm, -, hending, hcourse, -, -, -⟩ := awaitConfirmation_course rfl
    "0xab" hlimit hpause (by decide) (Integer.lt_textBound (by decide)) rfl hshown
    (.start [telling (recorded .null), telling (recorded (.int 7)), telling successful] none) rfl
  obtain ⟨receipt, hsettled, hstatus⟩ := exists_settled_successful
  have hfirst : m ≠ 0 := by
    rintro rfl
    exact absurd (hending.of_isPending isPending_recorded).1 (by decide)
  obtain rfl : m = 1 := by omega
  cases hending with
  | failed h => exact absurd h isIncluded_recorded.found_ne_error
  | unsettled _ h => cases hsettled.symm.trans h
  | settled _ h =>
    cases hsettled.symm.trans h
    rw [hstatus] at hcourse
    exact hcourse
  | timedOut hpending => exact absurd isIncluded_recorded hpending.not_isIncluded

section

variable {w : World Reply} {attempts interval : Value} (hhooks : c.hooks = [])
  (hlimit : givenOr attempts c.config.pollAttempts = .ok (.int n))
  (hpause : givenOr interval c.config.pollInterval = .ok pause) (hnonneg : pause.isBelow 0 = .ok false)

include hhooks hlimit hpause hnonneg

/-- A limit without a text makes a fault of a status. -/
theorem course_awaitConfirmation_of_endless (hbound : Integer.textBound ≤ n)
    (hincluded : c.IsIncluded hash (nextReply w.answers)) {receipt : TransactionReceipt}
    (hsettled : c.settled hash (nextReply w.answers.tail) = .ok receipt) :
    Course (c.awaitConfirmation (.text hash) attempts interval) w (.error (.fault .badValue))
      [c.lookup hash, c.receiptQuery hash] w.answers.tail.tail := by
  obtain ⟨t, hfound, hin⟩ := isIncluded_iff_found.mp hincluded
  have hpos : 1 ≤ n := Nat.le_trans (Integer.lt_textBound (by decide)) hbound
  refine course_awaitConfirmation hash hlimit hpause fun checked hchecked _ => ?_
  refine Confirmation.course_await (r := .error (.fault .badValue)) (c.orderly_status _) hpos hnonneg
    fun operation start hstart _ => ?_
  have hanswers := hstart.trans hchecked
  rw [← hanswers] at hfound hsettled ⊢
  have hstatus := course_status_of_included hhooks start hfound hin
  rw [hsettled] at hstatus
  exact Confirmation.course_rounds_of_endless hbound operation hstatus

/-- When the only query finds the transaction pending, the attempts are used up. -/
theorem course_awaitConfirmation_once (hn : n = 1) (hsleep : w.interruptedSleep = none)
    (hpending : c.IsPending hash (nextReply w.answers)) :
    Course (c.awaitConfirmation (.text hash) attempts interval) w (expired hash 1 pause)
      [c.lookup hash] w.answers.tail := by
  subst hn
  have hbound : 1 < Integer.textBound := Integer.lt_textBound (by decide)
  refine course_awaitConfirmation hash hlimit hpause fun checked hchecked hcheckedSleep => ?_
  refine Confirmation.course_await (r := .ok none) (c.orderly_status _) Nat.le.refl hnonneg
    fun operation start hstart hstartSleep => Confirmation.course_rounds hbound operation ?_
  have hanswers := hstart.trans hchecked
  rw [← hanswers] at hpending ⊢
  refine course_pending_round hhooks hbound Nat.le.refl hpending
    ((hstartSleep.trans hcheckedSleep).trans hsleep) fun after hafter _ => ?_
  rw [← hafter]
  exact course_pure none after

/-- A first query that fails ends the waiting. -/
theorem course_awaitConfirmation_of_error (hpos : 1 ≤ n) {f : Failure}
    (h : c.found hash (nextReply w.answers) = .error f) :
    Course (c.awaitConfirmation (.text hash) attempts interval) w (.error f) [c.lookup hash]
      w.answers.tail := by
  obtain ⟨left, rfl⟩ : ∃ left, n = left + 1 := ⟨n - 1, by omega⟩
  refine course_awaitConfirmation hash hlimit hpause fun checked hchecked _ => ?_
  refine Confirmation.course_await (r := .error f) (c.orderly_status _) hpos hnonneg
    fun operation start hstart _ => ?_
  have hanswers := hstart.trans hchecked
  rw [← hanswers] at h ⊢
  exact (Watch.course_poll_of_error (course_status_of_error hhooks start h)).bind_error _

end

/-- A text that is a lone surrogate. -/
def lone : Torn := ⟨[.half ⟨0xD800, by decide⟩], rfl⟩

/-- What a waiting cannot ask for or show becomes a fault: a hash with a lone surrogate before any query, a
limit without a text as soon as a status is known, and a pause without one when the attempts are used up.
And the error of a waiting may come from the transport, with no query answered. -/
theorem awaitConfirmation_endless :
    Course ((loopback (.int 30)).awaitConfirmation (.torn lone) (.int 1) (.int 0))
      (.start [telling (recorded .null)] none) (.error (.fault .unencodable)) []
      [telling (recorded .null)] ∧
    (loopback (.int 30)).IsIncluded "0xab" (telling (recorded (.int 7))) ∧
    (∃ receipt, (loopback (.int 30)).settled "0xab" (telling successful) = .ok receipt ∧
      receipt.status = .confirmed) ∧
    Course ((loopback (.int 30)).awaitConfirmation (.text "0xab") endless (.int 0))
      (.start [telling (recorded (.int 7)), telling successful] none) (.error (.fault .badValue))
      [(loopback (.int 30)).lookup "0xab", (loopback (.int 30)).receiptQuery "0xab"] [] ∧
    (loopback (.int 30)).IsPending "0xab" (telling (recorded .null)) ∧
    Course ((loopback (.int 30)).awaitConfirmation (.text "0xab") (.int 1) endless)
      (.start [telling (recorded .null)] none) (.error (.fault .badValue))
      [(loopback (.int 30)).lookup "0xab"] [] ∧
    ∃ timeout, ClientError.notConfirmed (.text "0xab") (.int 1) (.int 1) = .ok timeout ∧
      Course ((loopback (.int 30)).awaitConfirmation (.text "0xab") (.int 1) (.int 1))
        (.start [.failure (.client timeout)] none) (.error (.client timeout))
        [(loopback (.int 30)).lookup "0xab"] [] := by
  have hgiven : ∀ (n : Nat) (configured : Except Fault Value),
      givenOr (.int n) configured = .ok (.int n) := fun _ _ => rfl
  have hnonneg : ∀ n : Nat, (Value.int n).isBelow 0 = .ok false := fun n =>
    Confirmation.isBelow_nat (by omega)
  have hone : (Value.int (1 : Nat)).display = .ok (Integer.decimal 1) :=
    Value.integerText_of_lt (Integer.lt_textBound (by decide))
  obtain ⟨receipt, hsettled, hstatus⟩ := exists_settled_successful
  refine ⟨?_, isIncluded_recorded, ⟨receipt, hsettled, hstatus⟩, ?_, isPending_recorded, ?_, ?_⟩
  · exact course_awaitConfirmation_of_torn lone (hgiven 1 _) (hgiven 0 _) Nat.le.refl (hnonneg 0) _
  · exact course_awaitConfirmation_of_endless rfl (hgiven Integer.textBound _) (hgiven 0 _)
      (hnonneg 0) Nat.le.refl isIncluded_recorded hsettled
  · have hexpired : expired "0xab" 1 endless = .error (.fault .badValue) := by
      rw [expired, ClientError.notConfirmed, hone, display_endless]
      rfl
    rw [← hexpired]
    exact course_awaitConfirmation_once rfl (hgiven 1 _) (hgiven Integer.textBound _)
      (hnonneg Integer.textBound) rfl rfl isPending_recorded
  · obtain ⟨timeout, htimeout⟩ : ∃ timeout, ClientError.notConfirmed (.text "0xab")
        (.int (1 : Nat)) (.int (1 : Nat)) = .ok timeout := by
      rw [ClientError.notConfirmed, hone]
      exact ⟨_, rfl⟩
    exact ⟨timeout, htimeout, course_awaitConfirmation_of_error rfl (hgiven 1 _) (hgiven 1 _)
      (hnonneg 1) Nat.le.refl rfl⟩

end Client

end LedgerClient
