import LedgerClient.Client.Exchange
import LedgerClient.Proofs.Hook
import LedgerClient.Proofs.Json.RoundTrip
import LedgerClient.Proofs.Text.Utf8
import LedgerClient.Proofs.Trace.Orderly

/-!
# The course of an exchange

When a hook fails before the request, nothing is sent. Otherwise exactly one request is sent, one
reply is taken, and the result is a function of that reply.
-/

namespace LedgerClient.Client

open LedgerClient.Action Event

/-! ## What a reply means -/

/-- The failure of a request that no response answered. -/
def unanswered (c : Client) (url : String) (why : Failure) : Result Value :=
  match why with
  | .client e => .error (.client e)
  | .fault f =>
    if f.isCancellation then .error (.fault f)
    else do
      let e ← ErrorMapping.ofTransport (.fault f) url (some c.config.timeout)
      .fail e

/-- The value of a response, or the error for its status. -/
def answered (status : Int) (raw : Bytes) (url : String) : Result Value :=
  if Hook.isSuccess status then Response.parseBody raw url
  else do
    let e ← ErrorMapping.ofResponse status raw (some url)
    .fail e

/-- What comes of a reply once the hooks have been told about a response. -/
def received (c : Client) (method url : String) (reply : Reply) : Result Value :=
  match reply with
  | .failure why => c.unanswered url why
  | .response status raw => do
    Hook.verdict (c.hooks.map fun h => h.afterResponse method url status (Text.ofUtf8 raw))
    answered status raw url

/-- The reply that a script gives next. -/
def nextReply (script : List Reply) : Reply := script.head?.getD noReply

variable {ρ : Type}

/-- What a client remarks about a failure is no note of a hook. -/
theorem leaves_failTransmission (c : Client) (method url : String) (why : Failure) :
    ∃ remarks : List LogEntry, Leaves (c.failTransmission method url why : Action ρ Value)
      (c.unanswered url why) (remarks.map .entry) := by
  cases why with
  | client e => exact ⟨[], leaves_throw _⟩
  | fault f =>
    unfold failTransmission unanswered
    by_cases hcancel : f.isCancellation = true
    · simp only [hcancel, if_true]
      exact ⟨[], leaves_throw _⟩
    · simp only [hcancel]
      cases ErrorMapping.ofTransport (.fault f) url (some c.config.timeout) with
      | error g => exact ⟨[], (leaves_ofResult (.error g)).bind_error _⟩
      | ok e => exact ⟨[_], (leaves_ofResult (.ok e)).bind ((leaves_note _).bind (leaves_throw _))⟩

theorem leaves_failStatus (status : Int) (raw : Bytes) (url : String) :
    ∃ remarks : List LogEntry, Leaves (failStatus status raw url : Action ρ Value)
      (do let e ← ErrorMapping.ofResponse status raw (some url); .fail e) (remarks.map .entry) := by
  unfold failStatus
  cases ErrorMapping.ofResponse status raw (some url) with
  | error g => exact ⟨[], (leaves_ofResult (.error g)).bind_error _⟩
  | ok e =>
    cases hlog : ErrorMapping.logText e with
    | none =>
      refine ⟨[], (leaves_ofResult (.ok e)).bind ?_⟩
      rw [hlog]
      exact leaves_throw _
    | some text =>
      refine ⟨[.plain ErrorMapping.logger 10 text], (leaves_ofResult (.ok e)).bind ?_⟩
      rw [hlog]
      exact (leaves_note _).bind (leaves_throw _)

/-- What a client does with a reply. -/
def conclude (c : Client) (method url : String) : Reply → Action ρ Value
  | .failure why => c.failTransmission method url why
  | .response status raw => do
    Hook.react (c.hooks.map fun h => h.afterResponse method url status (Text.ofUtf8 raw))
    if Hook.isSuccess status then ofResult (Response.parseBody raw url) else failStatus status raw url

/-- The notes of the hooks about a reply: none when no response arrived. -/
def heardAfter (c : Client) (method url : String) : Reply → List Note
  | .failure _ => []
  | .response status raw =>
    Hook.heard (c.hooks.map fun h => h.afterResponse method url status (Text.ofUtf8 raw))

/-- Behind the hooks a client makes of a reply what it means, and may remark on it. -/
theorem leaves_conclude (c : Client) (method url : String) (reply : Reply) :
    ∃ remarks : List LogEntry, Leaves (c.conclude method url reply : Action ρ Value)
      (c.received method url reply) (c.heardAfter method url reply ++ remarks.map .entry) := by
  cases reply with
  | failure why => exact c.leaves_failTransmission method url why
  | response status raw =>
    have hheard := Hook.leaves_react (ρ := ρ)
      (c.hooks.map fun h => h.afterResponse method url status (Text.ofUtf8 raw))
    show ∃ remarks : List LogEntry, Leaves _
      (Hook.verdict (c.hooks.map fun h => h.afterResponse method url status (Text.ofUtf8 raw)) >>=
        fun _ => answered status raw url) (Hook.heard _ ++ _)
    cases hverdict : Hook.verdict
        (c.hooks.map fun h => h.afterResponse method url status (Text.ofUtf8 raw)) with
    | error f =>
      rw [hverdict] at hheard
      refine ⟨[], ?_⟩
      rw [List.map_nil, List.append_nil]
      exact hheard.bind_error _
    | ok u =>
      rw [hverdict] at hheard
      show ∃ remarks : List LogEntry, Leaves _ (answered status raw url) _
      unfold answered
      by_cases hsuccess : Hook.isSuccess status = true
      · rw [if_pos hsuccess]
        refine ⟨[], hheard.bind ?_⟩
        rw [if_pos hsuccess]
        exact leaves_ofResult _
      · obtain ⟨remarks, hfail⟩ := leaves_failStatus (ρ := ρ) status raw url
        rw [if_neg hsuccess]
        refine ⟨remarks, hheard.bind ?_⟩
        rw [if_neg hsuccess]
        exact hfail

/-! ## The exchange -/

/-- A world behind a request. -/
def afterRequest (w : World Reply) (r : Request) : World Reply :=
  { w.recordAll [.request r] with answers := w.answers.tail, transport := w.transport.acquire.2 }

theorem perform_transmit (r : Request) (w : World Reply) :
    perform (transmit r) w = (.ok (nextReply w.answers), afterRequest w r) := by
  obtain ⟨answers, events, sleeps, interruptedSleep, correlation, transport⟩ := w
  cases answers <;> rfl

theorem course_transmit (r : Request) (w : World Reply) :
    Course (transmit r) w (.ok (nextReply w.answers)) [.request r] w.answers.tail :=
  ⟨[.request r], _, perform_transmit r w, rfl, rfl, rfl, rfl⟩

theorem orderly_transmit (r : Request) : Orderly (transmit r) := by
  intro w
  rw [perform_transmit]
  exact ⟨[.request r], rfl, rfl, rfl, rfl, List.prefix_rfl⟩

/-- The request that goes out. -/
def outgoing (c : Client) (method url : String) (body : Option String) : Request :=
  ⟨method, url, c.headers body.isSome, body, c.config.timeout⟩

/-- What the hooks say before the request goes out. -/
def permission (c : Client) (method url : String) (body : Option String) : Result Unit :=
  Hook.verdict (c.hooks.map fun h => h.beforeRequest method url body)

theorem permission_eq_ok_iff {c : Client} {method url : String} {body : Option String} :
    c.permission method url body = .ok () ↔
      ∀ h ∈ c.hooks, (h.beforeRequest method url body).failure = none := by
  rw [permission, Hook.verdict_eq_ok_iff, List.forall_mem_map]

/-- A hook that fails keeps the request back. -/
theorem leaves_exchange_of_refused {c : Client} {method url : String} {body : Option String}
    {f : Failure} (h : c.permission method url body = .error f) :
    Leaves (c.exchange method url body) (.error f)
      (Hook.heard (c.hooks.map fun h => h.beforeRequest method url body)) := by
  have hreact := Hook.leaves_react (ρ := Reply) (c.hooks.map fun h => h.beforeRequest method url body)
  rw [show Hook.verdict _ = _ from h] at hreact
  exact hreact.bind_error _

/-- Otherwise one request goes out and its reply decides. -/
theorem course_exchange {c : Client} {method url : String} {body : Option String}
    (h : c.permission method url body = .ok ()) (w : World Reply) :
    Course (c.exchange method url body) w (c.received method url (nextReply w.answers))
      [.request (c.outgoing method url body)] w.answers.tail := by
  have hreact := Hook.leaves_react (ρ := Reply) (c.hooks.map fun h => h.beforeRequest method url body)
  rw [show Hook.verdict _ = _ from h] at hreact
  refine Course.after_leaves hreact fun before hbefore _ => ?_
  rw [← hbefore]
  rw [← List.append_nil [Event.request _]]
  refine (course_transmit (c.outgoing method url body) before).bind fun after hafter _ => ?_
  rw [← hafter]
  obtain ⟨remarks, hconclude⟩ := c.leaves_conclude (ρ := Reply) method url (nextReply before.answers)
  exact hconclude.course after

section

variable {R : World Reply → World Reply → Prop} (hkept : Kept R)
  (htransmit : ∀ r : Request, Within R (transmit r))

include hkept htransmit

theorem within_exchange (c : Client) (method url : String) (body : Option String) :
    Within R (c.exchange method url body) := by
  refine hkept.bind (hkept.leaves (Hook.leaves_react _)) fun _ =>
    hkept.bind (htransmit _) fun reply => ?_
  obtain ⟨remarks, hconclude⟩ := c.leaves_conclude (ρ := Reply) method url reply
  exact hkept.leaves hconclude

/-! ## Requests to a path -/

/-- What sending keeps is kept by a whole request. -/
theorem within_request (c : Client) (method : String) (path body params : Value) :
    Within R (c.request method path body params) :=
  hkept.bind (hkept.ofResult _) fun url => hkept.bind (hkept.ofResult _) fun text =>
    within_exchange hkept htransmit c method url text

end

theorem orderly_request (c : Client) (method : String) (path body params : Value) :
    Orderly (c.request method path body params) :=
  within_request kept_extends orderly_transmit c method path body params

/-- Without a URL or a body there is no request. -/
theorem leaves_request_of_unwritable {c : Client} {method : String} {path body params : Value}
    {f : Fault} (h : c.config.requestUrl path params = .error f ∨
      (∃ url, c.config.requestUrl path params = .ok url) ∧ bodyText body = .error f) :
    Leaves (c.request method path body params) (.error (.fault f)) [] := by
  unfold request
  rcases h with hurl | ⟨⟨url, hurl⟩, hbody⟩
  · rw [hurl]
    exact (leaves_throw _).bind_error _
  · rw [hurl, hbody]
    exact (leaves_pure url).bind ((leaves_throw _).bind_error _)

theorem leaves_send_of_unwritable {c : Client} (method : String) {path body params : Value}
    (decoder : Value) {f : Fault} (h : c.config.requestUrl path params = .error f ∨
      (∃ url, c.config.requestUrl path params = .ok url) ∧ bodyText body = .error f) :
    Leaves (c.send (.text method) path body decoder params) (.error (.fault f)) [] :=
  (leaves_pure (Text.upper method)).bind ((leaves_request_of_unwritable h).bind_error _)

theorem request_eq_exchange {c : Client} {method url : String} {path body params : Value}
    {text : Option String} (hurl : c.config.requestUrl path params = .ok url)
    (hbody : bodyText body = .ok text) :
    c.request method path body params = c.exchange method url text := by
  unfold request
  rw [hurl, hbody]
  rfl

/-! ## Clients without hooks -/

/-- What a reply means to a client without hooks. -/
def reading (c : Client) (url : String) (reply : Reply) : Result Value :=
  match reply with
  | .failure why => c.unanswered url why
  | .response status raw => answered status raw url

/-- A successful response whose body is the JSON text of a value. -/
def telling (v : Value) : Reply := .response 200 (Text.utf8 ((Json.write v).toOption.getD ""))

theorem reading_telling (c : Client) (url : String) {levels : Nat} {v : Value} (h : Json.Plain levels v)
    (hlevels : levels ≤ Json.nestingLimit) : c.reading url (telling v) = .ok v := by
  obtain ⟨text, hwrite, -⟩ := Json.exists_write h
  have htelling : telling v = .response 200 (Text.utf8 text) := by
    rw [telling, hwrite]
    rfl
  rw [htelling]
  show answered 200 (Text.utf8 text) url = _
  rw [answered, if_pos (by decide), Response.parseBody, Text.ofUtf8_utf8]
  simp only [Json.read_of_write h hlevels hwrite]

/-- A client of the loopback network without hooks. -/
def loopback (timeout : Value) : Client :=
  onTransport ⟨.loopback, none, timeout, .null, .text ClientConfig.defaultUserAgent⟩ [] secp256k1

variable {c : Client} (hhooks : c.hooks = [])

include hhooks

theorem permission_of_no_hooks (method url : String) (body : Option String) :
    c.permission method url body = .ok () := by
  rw [permission_eq_ok_iff, hhooks]
  exact List.forall_mem_nil _

theorem received_of_no_hooks (method url : String) (reply : Reply) :
    c.received method url reply = c.reading url reply := by
  cases reply with
  | failure why => rfl
  | response status raw =>
    rw [received, hhooks]
    rfl

theorem course_request {method url : String} {path body params : Value} {text : Option String}
    (hurl : c.config.requestUrl path params = .ok url) (hbody : bodyText body = .ok text)
    (w : World Reply) :
    Course (c.request method path body params) w (c.reading url (nextReply w.answers))
      [.request (c.outgoing method url text)] w.answers.tail := by
  rw [request_eq_exchange hurl hbody, ← received_of_no_hooks hhooks method]
  exact course_exchange (permission_of_no_hooks hhooks method url text) w

/-- What the decoder makes of the value of the reply is the result. -/
theorem course_send {method url : String} {path body decoder params : Value} {text : Option String}
    (hurl : c.config.requestUrl path params = .ok url) (hbody : bodyText body = .ok text)
    (w : World Reply) :
    Course (c.send (.text method) path body decoder params) w
      (c.reading url (nextReply w.answers) >>= Decoder.readAs decoder)
      [.request (c.outgoing (Text.upper method) url text)] w.answers.tail :=
  Course.after_leaves (leaves_pure (Text.upper method)) fun after hanswers _ => by
    rw [← hanswers]
    exact (course_request hhooks hurl hbody after).bind_ofResult (Decoder.readAs decoder)

end LedgerClient.Client
