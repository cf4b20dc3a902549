import LedgerClient.Client.Call
import LedgerClient.Proofs.Client.Exchange
import LedgerClient.Proofs.Confirmation
import LedgerClient.Proofs.Transport

/-!
# The connections of a client

Each request of a client is one sending of its transport, and nothing else that a client does touches a
connection, except that closing the client closes a transport that it set up itself. So what is true of
a transport behind any uses is true of it behind any calls of its client.
-/

namespace LedgerClient

open Transport (Use)

namespace World

/-- The second world came from the first by these events and these uses of the transport. Every request
is a sending. -/
structure Uses (w after : World Reply) (es : List Event) (uses : List Use) : Prop where
  events : after.events = w.events ++ es
  transport : after.transport = w.transport.after uses
  requests : es.countP Event.isRequest = uses.countP fun u => !u.isClosing

theorem Uses.refl (w : World Reply) : w.Uses w [] [] := ⟨(List.append_nil _).symm, rfl, rfl⟩

theorem Uses.trans {w mid after : World Reply} {es fs : List Event} {uses more : List Use}
    (h : w.Uses mid es uses) (h' : mid.Uses after fs more) :
    w.Uses after (es ++ fs) (uses ++ more) where
  events := by rw [h'.events, h.events, List.append_assoc]
  transport := by rw [h'.transport, h.transport, Transport.after_append]
  requests := by rw [List.countP_append, List.countP_append, h.requests, h'.requests]

/-- Between the two worlds something may have been sent, but nothing was closed. -/
def SendsTo (w after : World Reply) : Prop :=
  ∃ es uses, w.Uses after es uses ∧ ∀ u ∈ uses, u.isClosing = false

end World

namespace Client

open LedgerClient.Action

/-- The action may send, but it closes nothing. -/
def Sends {α : Type} (a : Action Reply α) : Prop := Within World.SendsTo a

theorem kept_sendsTo : Kept World.SendsTo where
  notes w notes := by
    have hnone : (notes.map Event.note).countP Event.isRequest = 0 := by
      rw [List.countP_map, List.countP_eq_zero]
      exact fun n _ => Bool.false_ne_true
    exact ⟨notes.map .note, [], ⟨rfl, rfl, hnone⟩, List.forall_mem_nil _⟩
  pause w seconds := ⟨[.sleep seconds], [], ⟨rfl, rfl, rfl⟩, List.forall_mem_nil _⟩
  scope {w after} heading := by
    rintro ⟨es, uses, huses, hsendings⟩
    exact ⟨es, uses, ⟨huses.events, huses.transport, huses.requests⟩, hsendings⟩
  trans := by
    rintro u v w ⟨es, uses, huses, hsendings⟩ ⟨fs, more, hmore, hothers⟩
    exact ⟨es ++ fs, uses ++ more, huses.trans hmore,
      List.forall_mem_append.mpr ⟨hsendings, hothers⟩⟩

section

variable {α β : Type}

theorem sends_ofResult (r : Result α) : Sends (ofResult r) := kept_sendsTo.ofResult r

theorem sends_pure (x : α) : Sends (pure x) := kept_sendsTo.pure x

theorem sends_throw (f : Failure) : Sends (throw f : Action Reply α) := kept_sendsTo.throw f

theorem sends_log (e : LogEntry) : Sends (log e) := kept_sendsTo.log e

theorem Sends.bind {a : Action Reply α} {f : α → Action Reply β} (ha : Sends a)
    (hf : ∀ x, Sends (f x)) : Sends (a >>= f) := kept_sendsTo.bind ha hf

theorem Sends.bind_ofResult {a : Action Reply α} (ha : Sends a) (f : α → Result β) :
    Sends (a >>= fun x => ofResult (f x)) := kept_sendsTo.bind_ofResult ha f

theorem Sends.bind_pure {a : Action Reply α} (ha : Sends a) (f : α → β) :
    Sends (a >>= fun x => pure (f x)) := ha.bind fun x => sends_pure (f x)

end

/-! ## Requests -/

/-- A request takes the connection, whatever comes back. -/
theorem sends_transmit (r : Request) : Sends (transmit r) := by
  intro w
  rw [perform_transmit]
  exact ⟨[.request r], [.sending (nextReply w.answers)], ⟨rfl, rfl, rfl⟩,
    List.forall_mem_singleton.mpr rfl⟩

theorem sends_request (c : Client) (method : String) (path body params : Value) :
    Sends (c.request method path body params) :=
  within_request kept_sendsTo sends_transmit c method path body params

theorem sends_send (c : Client) (method path body decoder params : Value) :
    Sends (c.send method path body decoder params) :=
  (sends_ofResult _).bind fun _ => (c.sends_request _ _ _ _).bind_ofResult _

/-! ## Queries -/

theorem sends_ask (c : Client) (path : String) (params : List (String × Value)) (type : ResponseType) :
    Sends (c.ask path params type) := (c.sends_request _ _ _ _).bind_ofResult _

theorem sends_serviceChainId (c : Client) : Sends c.serviceChainId := by
  refine (c.sends_ask _ _ _).bind fun answer => ?_
  cases answer with
  | chainId id =>
    show Sends (if id = c.chainId then pure _ else _)
    split
    · exact sends_pure _
    · exact (sends_log _).bind_pure _
  | _ => exact sends_pure _

theorem sends_transaction (c : Client) (hash : Value) : Sends (c.transaction hash) :=
  (c.sends_request _ _ _ _).bind_ofResult _

theorem sends_receipt (c : Client) (hash : Value) : Sends (c.receipt hash) :=
  (c.sends_request _ _ _ _).bind_ofResult _

theorem sends_status (c : Client) (hash : Value) : Sends (c.status hash) := by
  refine (c.sends_transaction hash).bind fun t => ?_
  split
  · exact (c.sends_receipt hash).bind_pure _
  · exact sends_pure _

theorem sends_awaitConfirmation (c : Client) (hash attempts interval : Value) :
    Sends (c.awaitConfirmation hash attempts interval) :=
  (sends_ofResult _).bind fun _ => (sends_ofResult _).bind fun _ =>
    Confirmation.within_await kept_sendsTo (c.sends_status hash) _ _

/-! ## Submissions -/

theorem sends_noteChain (c : Client) (chainId : Value) : Sends (c.noteChain chainId) := by
  refine (sends_ofResult _).bind fun same => ?_
  split
  · exact sends_pure _
  · exact (sends_ofResult _).bind fun shown => sends_log _

theorem sends_signRequest (c : Client) (payload key : Value) : Sends (c.signRequest payload key) :=
  (sends_ofResult _).bind fun chainId => (c.sends_noteChain chainId).bind fun _ =>
    (sends_ofResult _).bind fun _ => (sends_ofResult _).bind_pure _

theorem sends_submitSigned (c : Client) (path payload body : Value) :
    Sends (c.submitSigned path payload body) :=
  (c.sends_request _ _ _ _).bind fun _ => (sends_ofResult _).bind fun _ =>
    (sends_ofResult _).bind fun _ => (sends_ofResult _).bind fun _ => (sends_log _).bind_pure _

theorem sends_submit (c : Client) (m : SubmissionMethod) (payload key : Value) :
    Sends (c.submit m payload key) :=
  (sends_ofResult _).bind fun _ => (c.sends_signRequest payload key).bind fun _ =>
    c.sends_submitSigned _ _ _

/-! ## Operations by name -/

/-- Whatever values the operation runs on, it closes nothing. -/
def Operation.Sends (op : Operation) : Prop := ∀ values, Client.Sends (op.run values)

theorem sends_operation0 {run : Action Reply Answer} (h : Sends run) : (operation0 run).Sends := by
  intro values
  cases values with
  | nil => exact h
  | cons a rest => exact sends_throw _

theorem sends_operation1 (p : Parameter) {run : Value → Action Reply Answer}
    (h : ∀ a, Sends (run a)) : (operation1 p run).Sends := by
  intro values
  rcases values with _ | ⟨a, _ | ⟨b, rest⟩⟩
  · exact sends_throw _
  · exact h a
  · exact sends_throw _

theorem sends_operation2 (p q : Parameter) {run : Value → Value → Action Reply Answer}
    (h : ∀ a b, Sends (run a b)) : (operation2 p q run).Sends := by
  intro values
  rcases values with _ | ⟨a, _ | ⟨b, _ | ⟨c, rest⟩⟩⟩
  · exact sends_throw _
  · exact sends_throw _
  · exact h a b
  · exact sends_throw _

theorem sends_operation3 (p q r : Parameter) {run : Value → Value → Value → Action Reply Answer}
    (h : ∀ a b c, Sends (run a b c)) : (operation3 p q r run).Sends := by
  intro values
  rcases values with _ | ⟨a, _ | ⟨b, _ | ⟨c, _ | ⟨d, rest⟩⟩⟩⟩
  · exact sends_throw _
  · exact sends_throw _
  · exact sends_throw _
  · exact h a b c
  · exact sends_throw _

theorem sends_response {a : Action Reply Response} (h : Sends a) : Sends (response a) := h.bind_pure _

theorem sends_returning {a : Action Reply Value} (h : Sends a) : Sends (returning a) := h.bind_pure _

theorem sends_verdictAnswer (r : Result Signer.Verdict) : Sends (verdictAnswer r) := by
  refine sends_returning ((sends_ofResult r).bind fun v => ?_)
  cases v.why with
  | some e => exact (sends_log _).bind_pure _
  | none => exact sends_pure _

theorem sends_signed (r : Result Signature) : Sends (signed r) :=
  sends_returning ((sends_ofResult r).bind_pure _)

theorem sends_located (r : Result Address) : Sends (located r) :=
  sends_returning ((sends_ofResult r).bind_pure _)

theorem sends_inBytes (r : Result Bytes) : Sends (inBytes r) :=
  sends_returning ((sends_ofResult r).bind_pure _)

section

variable {c : Client} {name : String} {op : Operation}

theorem sends_accountOperation (h : c.accountOperation? name = some op) : op.Sends := by
  unfold accountOperation? at h
  split at h
  · cases h
    exact sends_operation1 _ fun a => sends_response ((sends_ofResult _).bind fun _ => c.sends_ask _ _ _)
  · cases h
    exact sends_operation1 _ fun a => sends_response ((sends_ofResult _).bind fun _ => c.sends_ask _ _ _)
  · cases h
    exact sends_operation2 _ _ fun a t => sends_response ((sends_ofResult _).bind fun _ =>
      (sends_ofResult _).bind fun _ => c.sends_ask _ _ _)
  · cases h
    exact sends_operation2 _ _ fun a t => sends_returning ((sends_ofResult _).bind_pure _)
  · cases h
    exact sends_operation1 _ fun t => sends_response ((sends_ofResult _).bind fun _ => c.sends_ask _ _ _)
  · cases h

theorem sends_stateOperation (h : c.stateOperation? name = some op) : op.Sends := by
  unfold stateOperation? at h
  split at h
  · cases h
    exact sends_operation0 (sends_response (c.sends_ask _ _ _))
  · cases h
    exact sends_operation0 (sends_response c.sends_serviceChainId)
  · cases h
    exact sends_operation0 (sends_response (c.sends_ask _ _ _))
  · cases h
    exact sends_operation2 _ _ fun n f => sends_response (c.sends_ask _ _ _)
  · cases h
    exact sends_operation2 _ _ fun h f => sends_response (c.sends_ask _ _ _)
  · cases h
    exact sends_operation0 (sends_response (c.sends_ask _ _ _))
  · cases h
    exact sends_operation1 _ fun i => sends_response (c.sends_ask _ _ _)
  · cases h

theorem sends_transactionOperation (h : c.transactionOperation? name = some op) : op.Sends := by
  unfold transactionOperation? at h
  split at h
  · cases h
    exact sends_operation1 _ fun h => sends_response ((c.sends_transaction h).bind_pure _)
  · cases h
    exact sends_operation1 _ fun h => sends_response ((c.sends_receipt h).bind_pure _)
  · cases h
    exact sends_operation3 _ _ _ fun s v t => sends_response ((sends_ofResult _).bind fun _ =>
      (sends_ofResult _).bind fun _ => (sends_ofResult _).bind fun _ => c.sends_ask _ _ _)
  · cases h
    exact sends_operation1 _ fun h => sends_returning ((c.sends_status h).bind_pure _)
  · cases h
    exact sends_operation3 _ _ _ fun h a i =>
      sends_returning ((c.sends_awaitConfirmation h a i).bind_pure _)
  · cases h

/-- Of what a client does by name, only its closing may close a connection. -/
theorem sends_requestOperation (h : c.requestOperation? name = some op) (hname : name ≠ "aclose") :
    op.Sends := by
  unfold requestOperation? at h
  split at h
  · cases h
    intro values
    dsimp only
    split
    · exact c.sends_send _ _ _ _ _
    · exact sends_throw _
  · cases h
    exact sends_operation3 _ _ _ fun path params decoder => c.sends_send _ _ _ _ _
  · cases h
    exact sends_operation3 _ _ _ fun path body decoder => c.sends_send _ _ _ _ _
  · cases h
    exact sends_operation2 _ _ fun path params => sends_returning ((sends_ofResult _).bind_pure _)
  · cases h
    exact sends_operation2 _ _ fun p k => sends_returning (c.sends_signRequest p k)
  · cases h
    exact sends_operation3 _ _ _ fun path p b => c.sends_submitSigned path p b
  · exact absurd rfl hname
  · cases h

theorem sends_signerOperation (h : c.signerOperation? name = some op) : op.Sends := by
  unfold signerOperation? at h
  split at h
  · cases h
    exact sends_operation2 _ _ fun m k => sends_signed _
  · cases h
    exact sends_operation2 _ _ fun h k => sends_signed _
  · cases h
    exact sends_operation2 _ _ fun p k => sends_signed _
  · cases h
    exact sends_operation2 _ _ fun m s => sends_located _
  · cases h
    exact sends_operation2 _ _ fun m s => sends_located _
  · cases h
    exact sends_operation3 _ _ _ fun m s a => sends_verdictAnswer _
  · cases h
    exact sends_operation3 _ _ _ fun m s a => sends_verdictAnswer _
  · cases h
    exact sends_operation1 _ fun k => sends_inBytes _
  · cases h
    exact sends_operation1 _ fun k => sends_located _
  · cases h
    exact sends_operation1 _ fun p => sends_inBytes _
  · cases h
    exact sends_operation1 _ fun p => sends_inBytes _
  · cases h
    exact sends_operation1 _ fun p => sends_returning ((sends_ofResult _).bind_pure _)
  · cases h

theorem sends_operation (h : c.operation? name = some op) (hname : name ≠ "aclose") : op.Sends := by
  unfold operation? at h
  rcases Option.or_eq_some_iff.mp h with h | ⟨-, h⟩
  · obtain ⟨m, -, rfl⟩ := Option.map_eq_some_iff.mp h
    exact sends_operation2 _ _ fun p k => c.sends_submit m p k
  rcases Option.or_eq_some_iff.mp h with h | ⟨-, h⟩
  · exact sends_requestOperation h hname
  rcases Option.or_eq_some_iff.mp h with h | ⟨-, h⟩
  · exact sends_transactionOperation h
  rcases Option.or_eq_some_iff.mp h with h | ⟨-, h⟩
  · exact sends_stateOperation h
  rcases Option.or_eq_some_iff.mp h with h | ⟨-, h⟩
  · exact sends_accountOperation h
  · exact sends_signerOperation h

end

/-! ## Sessions -/

/-- Something that is asked of a client. -/
structure Invocation where
  name : String
  args : List Value
  named : List (String × Value)

namespace Invocation

/-- The closing of a client. With arguments it is refused. -/
def closing : Invocation := ⟨"aclose", [], []⟩

def isClosing (i : Invocation) : Bool := i.name = "aclose" && i.args.isEmpty && i.named.isEmpty

theorem eq_closing {i : Invocation} (h : i.isClosing = true) : i = closing := by
  obtain ⟨name, args, named⟩ := i
  simp only [isClosing, Bool.and_eq_true, decide_eq_true_eq, List.isEmpty_iff] at h
  obtain ⟨⟨rfl, rfl⟩, rfl⟩ := h
  rfl

end Invocation

/-- The world behind a call, whether it fails or not. -/
def afterCall (c : Client) (w : World Reply) (i : Invocation) : World Reply :=
  (perform (c.call i.name i.args i.named) w).2

/-- The world behind some calls, one after another. -/
def session (c : Client) (calls : List Invocation) (w : World Reply) : World Reply :=
  calls.foldl c.afterCall w

theorem ownsTransport_eq_true_iff {c : Client} :
    c.ownsTransport = true ↔ c = standalone c.config c.hooks c.backend := by
  obtain ⟨config, hooks, backend, owns⟩ := c
  simp [standalone]

/-- The uses of a transport by the closing of its client. -/
def closingUses (c : Client) : List Use := if c.ownsTransport then [.closing] else []

theorem closedTransport_eq_after (c : Client) (t : Transport) :
    c.closedTransport t = t.after c.closingUses := by
  unfold closedTransport closingUses
  split <;> rfl

theorem afterCall_closing (c : Client) (w : World Reply) :
    c.afterCall w .closing = { w with transport := c.closedTransport w.transport } := rfl

theorem bind_eq_error_of_surplus {args : List Value} {named : List (String × Value)}
    (h : args ≠ [] ∨ named ≠ []) : Parameter.bind [] args named = .error .wrongType := by
  cases args with
  | cons a args => rfl
  | nil =>
    cases named with
    | cons n named => rfl
    | nil => simp at h

theorem sends_call (c : Client) {i : Invocation} (h : i.isClosing = false) :
    Sends (c.call i.name i.args i.named) := by
  unfold call
  cases hop : c.operation? i.name with
  | none => exact sends_throw _
  | some op =>
    by_cases hname : i.name = "aclose"
    · rw [hname] at hop
      obtain rfl : operation0 (returning do c.close; return .null) = op := Option.some.inj hop
      have hsurplus : i.args ≠ [] ∨ i.named ≠ [] := by
        simpa [Invocation.isClosing, hname, ← not_and_or] using h
      have hbind : Parameter.bind [] i.args i.named = .error .wrongType :=
        bind_eq_error_of_surplus hsurplus
      show Sends (ofFault (Parameter.bind [] i.args i.named) >>= _)
      rw [hbind]
      exact kept_sendsTo.leaves ((leaves_throw _).bind_error _)
    · exact (sends_ofResult _).bind fun values => sends_operation hop hname values

theorem countP_isClosing_eq_zero {uses : List Use} (h : ∀ u ∈ uses, u.isClosing = false) :
    uses.countP Use.isClosing = 0 := by
  rw [List.countP_eq_zero]
  intro u hu
  rw [h u hu]
  exact Bool.false_ne_true

/-- One call closes the transport at most once: the closing, of a client that owns it. -/
theorem uses_afterCall (c : Client) (w : World Reply) (i : Invocation) :
    ∃ es uses, w.Uses (c.afterCall w i) es uses ∧
      uses.countP Use.isClosing = if c.ownsTransport && i.isClosing then 1 else 0 := by
  cases hi : i.isClosing with
  | false =>
    obtain ⟨es, uses, huses, hsendings⟩ := c.sends_call hi w
    rw [Bool.and_false]
    exact ⟨es, uses, huses, countP_isClosing_eq_zero hsendings⟩
  | true =>
    obtain rfl := Invocation.eq_closing hi
    refine ⟨[], c.closingUses, ⟨(List.append_nil _).symm, c.closedTransport_eq_after _, ?_⟩, ?_⟩
    · unfold closingUses
      split <;> rfl
    · unfold closingUses
      rw [Bool.and_true]
      split <;> rfl

theorem uses_session (c : Client) (calls : List Invocation) (w : World Reply) :
    ∃ es uses, w.Uses (c.session calls w) es uses ∧ uses.countP Use.isClosing =
      if c.ownsTransport then calls.countP Invocation.isClosing else 0 := by
  induction calls generalizing w with
  | nil => exact ⟨[], [], .refl w, by split <;> rfl⟩
  | cons i rest ih =>
    obtain ⟨es, uses, huses, hcount⟩ := c.uses_afterCall w i
    obtain ⟨fs, more, hmore, hrest⟩ := ih (c.afterCall w i)
    refine ⟨es ++ fs, uses ++ more, huses.trans hmore, ?_⟩
    rw [List.countP_append, hcount, hrest, List.countP_cons]
    cases c.ownsTransport with
    | false => rfl
    | true => exact Nat.add_comm _ _

theorem session_concat (c : Client) (calls : List Invocation) (i : Invocation) (w : World Reply) :
    c.session (calls ++ [i]) w = c.afterCall (c.session calls w) i := by
  rw [session, List.foldl_append]
  rfl

/-- Only a client that set up its transport closes the connection that the transport opened. -/
theorem current_closedTransport_iff (c : Client) {t : Transport} {n : Nat} (hcurrent : t.current = some n)
    (howned : t.owned = true) :
    (c.closedTransport t).current = none ↔ c = standalone c.config c.hooks c.backend := by
  rw [← ownsTransport_eq_true_iff, closedTransport]
  cases c.ownsTransport with
  | false =>
    refine iff_of_false ?_ Bool.false_ne_true
    show t.current ≠ none
    rw [hcurrent]
    exact Option.some_ne_none n
  | true =>
    refine iff_of_true ?_ rfl
    show t.close.current = none
    rw [Transport.close_of_owned hcurrent howned]

/-- A caller's connection serves every sending and is never closed. A transport with connections of its
own sends through one that is open, keeps it up to the next closing, never has two of them open, has
none open behind a closing, and a closing without an open one changes nothing. A client sends once for
each request, and its closing is one of the transport exactly when the client set up the transport. -/
theorem connections_follow_owner :
    (∀ (uses : List Use) (n : Nat),
      (Transport.supplied.after uses).acquire = (0, Transport.supplied.after uses) ∧
      (Transport.supplied.after uses).appeared = 1 ∧
      ((Transport.supplied.after uses).IsOpen n ↔ n = 0)) ∧
    (∀ uses : List Use,
      (Transport.fresh.after uses).acquire.2.IsOpen (Transport.fresh.after uses).acquire.1 ∧
      (∀ sendings : List Use, (∀ u ∈ sendings, u.isClosing = false) →
        (Transport.fresh.after (uses ++ sendings)).acquire.1 =
          (Transport.fresh.after uses).acquire.1) ∧
      (∀ m n, (Transport.fresh.after uses).IsOpen m → (Transport.fresh.after uses).IsOpen n →
        m = n) ∧
      (∀ closings : List Use, (∀ u ∈ closings, u.isClosing = true) → ∀ n,
        ¬(Transport.fresh.after (uses ++ .closing :: closings)).IsOpen n) ∧
      ((∀ n, ¬(Transport.fresh.after uses).IsOpen n) →
        Transport.fresh.after (uses ++ [.closing]) = Transport.fresh.after uses)) ∧
    ∀ (c : Client) (calls : List Invocation) (w : World Reply),
      (∃ es uses, w.Uses (c.session calls w) es uses ∧ uses.countP Use.isClosing =
        if c.ownsTransport then calls.countP Invocation.isClosing else 0) ∧
      perform (c.call "aclose" [] []) (c.session calls w) =
        (.ok (.value .null), c.session (calls ++ [.closing]) w) ∧
      c.session (calls ++ [.closing]) w = { c.session calls w with
        transport := if c.ownsTransport then (c.session calls w).transport.close
          else (c.session calls w).transport } ∧
      ∀ n, (c.session calls w).transport.current = some n →
        (c.session calls w).transport.owned = true →
        ((c.session (calls ++ [.closing]) w).transport.current = none ↔
          c = standalone c.config c.hooks c.backend) := by
  refine ⟨?_, ?_, ?_⟩
  · intro uses n
    rw [Transport.after_supplied]
    exact ⟨rfl, rfl, Transport.isOpen_supplied⟩
  · intro uses
    have hsound := Transport.sound_fresh.after uses
    refine ⟨hsound.isOpen_acquire, ?_, fun m n hm hn => hsound.isOpen_unique hm hn, ?_, ?_⟩
    · intro sendings hsendings
      rw [Transport.after_append]
      exact Transport.acquire_after_sendings hsendings _
    · intro closings hclosings n
      rw [Transport.after_append, Transport.after_cons]
      show ¬((Transport.fresh.after uses).close.after closings).IsOpen n
      rw [Transport.close_after_closings hclosings]
      exact hsound.not_isOpen_close n
    · intro hnone
      rw [Transport.after_append]
      exact hsound.close_eq_self hnone
  · intro c calls w
    rw [session_concat]
    refine ⟨c.uses_session calls w, rfl, c.afterCall_closing _, ?_⟩
    intro n hcurrent howned
    exact c.current_closedTransport_iff hcurrent howned

/-- A client with a transport of its own. -/
def owner : Client := standalone (loopback (.int 30)).config [] secp256k1

/-- A world in which nothing has been sent yet. -/
def unstarted : World Reply := { World.start [] none with transport := .fresh }

/-- A transport that was closed behind a failed sending sends the next time through a new connection,
and that one stays. An owner's connection is closed with it, behind a failed request too; that of a
client on a caller's transport is not. -/
theorem connections_of_reopened :
    (Transport.fresh.after [.sending noReply, .closing]).acquire.2.IsOpen 1 ∧
    (Transport.fresh.after [.sending noReply, .closing, .sending noReply]).acquire.1 = 1 ∧
    ¬(Transport.fresh.after [.sending noReply, .closing]).IsOpen 0 ∧
    Transport.fresh.after [.sending noReply, .closing, .closing] =
      Transport.fresh.after [.sending noReply, .closing] ∧
    (owner.session [⟨"states.get_chain_id", [], []⟩, .closing] unstarted).transport.current = none ∧
    ((loopback (.int 30)).session [⟨"states.get_chain_id", [], []⟩, .closing]
      unstarted).transport.current ≠ none := by
  obtain ⟨-, hown, hclient⟩ := connections_follow_owner
  obtain ⟨-, -, -, hclosed, -⟩ := hown [.sending noReply]
  have hnone : ∀ n, ¬(Transport.fresh.after [.sending noReply, .closing]).IsOpen n :=
    hclosed [] (List.forall_mem_nil _)
  obtain ⟨hopen, hkept, -, -, hidle⟩ := hown [.sending noReply, .closing]
  obtain ⟨-, -, -, howner⟩ := hclient owner [⟨"states.get_chain_id", [], []⟩] unstarted
  obtain ⟨-, -, -, hguest⟩ :=
    hclient (loopback (.int 30)) [⟨"states.get_chain_id", [], []⟩] unstarted
  refine ⟨hopen, hkept [.sending noReply] (List.forall_mem_singleton.mpr rfl), hnone 0, hidle hnone,
    (howner 0 rfl rfl).mpr rfl, fun h => ?_⟩
  have howns := (hguest 0 rfl rfl).mp h
  cases congrArg Client.ownsTransport howns

end Client

end LedgerClient
