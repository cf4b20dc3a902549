import LedgerClient.Proofs.Client.Exchange
import LedgerClient.Proofs.Json.Reading
import LedgerClient.Proofs.Response.Failure

/-!
# The outcome of a request

A request gives what the other side's answer means: an error for a status outside the successful ones,
an error for a body that is no JSON or has the wrong shape, the decoded value, or the failure of the
transport. Whether another attempt may help follows from the answer alone. Three faults escape besides: of a
body that is nested too deep, of a status without a text and of a timeout without one.
-/

namespace LedgerClient

namespace ErrorMapping

/-- The code and the message that a text states: those of an object that has both, and otherwise the
whole text without a code. -/
inductive States (text : String) : Script → Script → Prop where
  | object {entries : List (Value × Value)} {code message : Value} {codeText messageText : Script}
      (hjson : Json.read text = .ok (.dict entries))
      (hcode : Value.lookup "error_code" entries = some code)
      (hmessage : Value.lookup "message" entries = some message)
      (hcodeText : code.script = .ok codeText) (hmessageText : message.script = .ok messageText) :
      States text codeText messageText
  | whole (hdeep : Json.read text ≠ .error .tooDeep)
      (h : ∀ entries, Json.read text = .ok (.dict entries) →
        Value.lookup "error_code" entries = none ∨ Value.lookup "message" entries = none) :
      States text "unknown" text

theorem statedError_of_nested {text : String} (h : Json.read text = .error .tooDeep) :
    statedError text = .error .tooDeep := by
  rw [statedError, h]

theorem statedError_eq_some {text : String} {code message : Value}
    (h : statedError text = .ok (some (code, message))) :
    ∃ entries, Json.read text = .ok (.dict entries) ∧
      Value.lookup "error_code" entries = some code ∧
      Value.lookup "message" entries = some message := by
  unfold statedError at h
  split at h
  · next entries hjson =>
    simp only [Except.ok.injEq, Option.bind_eq_bind, Option.bind_eq_some_iff, Option.pure_def,
      Option.some.injEq, Prod.mk.injEq] at h
    obtain ⟨_, hcode, _, hmessage, rfl, rfl⟩ := h
    exact ⟨entries, hjson, hcode, hmessage⟩
  · cases h
  · cases h

theorem exists_statedError {text : String} (h : Json.read text ≠ .error .tooDeep) :
    ∃ stated, statedError text = .ok stated := by
  unfold statedError
  split
  · exact ⟨_, rfl⟩
  · next hdeep => exact absurd hdeep h
  · exact ⟨none, rfl⟩

theorem lookup_of_statedError_eq_none {text : String} (h : statedError text = .ok none)
    (entries : List (Value × Value)) (hjson : Json.read text = .ok (.dict entries)) :
    Value.lookup "error_code" entries = none ∨ Value.lookup "message" entries = none := by
  unfold statedError at h
  rw [hjson] at h
  cases hcode : Value.lookup "error_code" entries with
  | none => exact .inl rfl
  | some code =>
    cases hmessage : Value.lookup "message" entries with
    | none => exact .inr rfl
    | some message =>
      simp only [hcode, hmessage] at h
      cases h

/-- Every text that is not nested too deep states a code and a message, because what is read from JSON has
a text. -/
theorem exists_states {text : String} (h : Json.read text ≠ .error .tooDeep) :
    ∃ code message, statement text = .ok (code, message) ∧ States text code message := by
  unfold statement
  obtain ⟨stated, hstated⟩ := exists_statedError h
  rw [hstated]
  cases stated with
  | none => exact ⟨unknownCode, text, rfl, .whole h (lookup_of_statedError_eq_none hstated)⟩
  | some stated =>
    obtain ⟨code, message⟩ := stated
    obtain ⟨entries, hjson, hcode, hmessage⟩ := statedError_eq_some hstated
    have hdenoted : ∀ e ∈ entries, Json.Denoted e.2 := by
      cases Json.denoted_of_read hjson with
      | dict _ h => exact h
    obtain ⟨codeText, hcodeText⟩ := (Json.denoted_of_lookup hdenoted hcode).exists_script
    obtain ⟨messageText, hmessageText⟩ := (Json.denoted_of_lookup hdenoted hmessage).exists_script
    refine ⟨codeText, messageText, ?_, .object hjson hcode hmessage hcodeText hmessageText⟩
    show (do
      let codeText ← code.script
      let messageText ← message.script
      return (codeText, messageText)) = _
    rw [hcodeText, hmessageText]
    rfl

section

variable (status : Int) (raw : Bytes) (url : String)

theorem exists_ofResponse (hdeep : Json.read (Text.ofUtf8 raw) ≠ .error .tooDeep) :
    ∃ code message, States (Text.ofUtf8 raw) code message ∧ ofResponse status raw (some url) =
      Result.ofFault (Value.integerText status) >>= fun _ =>
        .ok (.api status code message (Text.ofUtf8 raw) (classify status code.mended) (some url)) := by
  obtain ⟨code, message, hstatement, hstates⟩ := exists_states hdeep
  refine ⟨code, message, hstates, ?_⟩
  unfold ofResponse
  simp only [hstatement]
  rfl

theorem ofResponse_of_nested (hdeep : Json.read (Text.ofUtf8 raw) = .error .tooDeep) :
    ofResponse status raw (some url) = .error (.fault .tooDeep) := by
  unfold ofResponse statement
  simp only [statedError_of_nested hdeep]
  rfl

end

/-- A failure without a response is one of the transport; only a timeout needs a text. -/
theorem ofTransport_settles (why : Failure) (url : String) (timeout : Option Value) :
    (∃ cause underlying, ofTransport why url timeout = .ok (.transport cause underlying) ∧
      cause.url = url) ∨
    ∃ g, familyOf why = .timeout ∧ timeoutText timeout = .error g ∧
      ofTransport why url timeout = .error (.fault g) := by
  unfold ofTransport
  cases familyOf why with
  | timeout =>
    cases hshown : timeoutText timeout with
    | ok seconds => exact .inl ⟨.timeout url seconds, some why.label, rfl, rfl⟩
    | error g => exact .inr ⟨g, rfl, rfl, rfl⟩
  | connection => exact .inl ⟨.connection url (some why.text), some why.label, rfl, rfl⟩
  | cancellation => exact .inl ⟨.failed url why.text, some why.label, rfl, rfl⟩
  | other => exact .inl ⟨.failed url why.text, some why.label, rfl, rfl⟩

end ErrorMapping

/-- No response arrived, or the service was busy. -/
def Reply.IsTransient : Reply → Prop
  | .failure _ => True
  | .response status _ => status = 429 ∨ 500 ≤ status ∧ status < 600

theorem ClientError.recoverable_eq_isRetryable {e : ClientError}
    (h : e.fields.recoverable = .bool e.isRetryable) : e.recoverable = e.isRetryable := by
  rw [recoverable, h]
  rfl

theorem isRetryableStatus_iff (status : Int) :
    isRetryableStatus status = true ↔ status = 429 ∨ 500 ≤ status ∧ status < 600 := by
  simp only [isRetryableStatus, Bool.or_eq_true, Bool.and_eq_true, decide_eq_true_eq]

namespace Client

open LedgerClient.Action

/-- The faults that no error of the client takes the place of, besides those that stop everything. -/
inductive Escapes (timeout : Value) : Reply → Fault → Prop where
  | nested {status : Int} {raw : Bytes} (hjson : Json.read (Text.ofUtf8 raw) = .error .tooDeep) :
      Escapes timeout (.response status raw) .tooDeep
  | status {status : Int} {raw : Bytes} (hstatus : ¬(200 ≤ status ∧ status < 300))
      (hjson : Json.read (Text.ofUtf8 raw) ≠ .error .tooDeep)
      (hshown : Integer.textBound ≤ status.natAbs) : Escapes timeout (.response status raw) .badValue
  | timeout {f g : Fault} (h : f.isCancellation = false)
      (hfamily : ErrorMapping.familyOf (.fault f) = .timeout)
      (hshown : ErrorMapping.timeoutText (some timeout) = .error g) :
      Escapes timeout (.failure (.fault f)) g

/-- What a request gives, by what the other side did with it. -/
inductive Outcome (timeout : Value) (url : String) (decoder : Value) :
    Reply → Result Answer → Prop where
  /-- The status is not one of success: an error of the service. -/
  | refused {status : Int} {raw : Bytes} {code message : Script}
      (hstatus : ¬(200 ≤ status ∧ status < 300))
      (hstates : ErrorMapping.States (Text.ofUtf8 raw) code message)
      (hshown : status.natAbs < Integer.textBound) :
      Outcome timeout url decoder (.response status raw) (.error (.client (.api status code message
        (Text.ofUtf8 raw) (ErrorMapping.classify status code.mended) (some url))))
  /-- The body is no JSON: decoding error 3001. -/
  | notJson {status : Int} {raw : Bytes} {underlying : Option String}
      (hstatus : 200 ≤ status ∧ status < 300)
      (hjson : Json.read (Text.ofUtf8 raw) = .error .malformed) :
      Outcome timeout url decoder (.response status raw)
        (.error (.client (.notJson url (Text.ofUtf8 raw) underlying)))
  /-- The decoder rejects the value: decoding error 3002. -/
  | rejected {status : Int} {raw : Bytes} {v : Value} {d : Decoder} {typeName why : String}
      {underlying : Option String} (hstatus : 200 ≤ status ∧ status < 300)
      (hjson : Json.read (Text.ofUtf8 raw) = .ok v) (hdecoder : decoder = .decoder d)
      (hrejects : ∀ a, d.readRaw v ≠ .ok a) :
      Outcome timeout url decoder (.response status raw)
        (.error (.client (.unexpectedShape typeName why underlying)))
  | decoded {status : Int} {raw : Bytes} {v : Value} {d : Decoder} {a : Answer}
      (hstatus : 200 ≤ status ∧ status < 300) (hjson : Json.read (Text.ofUtf8 raw) = .ok v)
      (hdecoder : decoder = .decoder d) (hreads : d.readRaw v = .ok a) :
      Outcome timeout url decoder (.response status raw) (.ok a)
  /-- Without a decoder the value itself is the result. -/
  | undecoded {status : Int} {raw : Bytes} {v : Value} (hstatus : 200 ≤ status ∧ status < 300)
      (hjson : Json.read (Text.ofUtf8 raw) = .ok v) (hdecoder : decoder = .null) :
      Outcome timeout url decoder (.response status raw) (.ok (.value v))
  /-- An error of the client passes unchanged. -/
  | passed (e : ClientError) : Outcome timeout url decoder (.failure (.client e)) (.error (.client e))
  | cancelled {f : Fault} (h : f.isCancellation = true) :
      Outcome timeout url decoder (.failure (.fault f)) (.error (.fault f))
  /-- Every other failure becomes one of the transport. -/
  | unsent {f : Fault} {cause : TransportCause} {underlying : Option String}
      (h : f.isCancellation = false) (hurl : cause.url = url) :
      Outcome timeout url decoder (.failure (.fault f)) (.error (.client (.transport cause underlying)))
  | escaped {reply : Reply} {g : Fault} (h : Escapes timeout reply g) :
      Outcome timeout url decoder reply (.error (.fault g))

/-- No decoder, or that of a record. -/
def IsRecordDecoder (decoder : Value) : Prop :=
  decoder = .null ∨ ∃ d : Decoder, decoder = .decoder d ∧ d.IsRecord

theorem isSuccess_iff (status : Int) :
    Hook.isSuccess status = true ↔ 200 ≤ status ∧ status < 300 := by
  simp only [Hook.isSuccess, Bool.and_eq_true, decide_eq_true_eq]

theorem outcome_of_value {timeout : Value} {url : String} {decoder : Value}
    (hdecoder : IsRecordDecoder decoder) {status : Int} {raw : Bytes} {v : Value}
    (hstatus : 200 ≤ status ∧ status < 300) (hjson : Json.read (Text.ofUtf8 raw) = .ok v) :
    Outcome timeout url decoder (.response status raw) (Decoder.readAs decoder v) := by
  rcases hdecoder with rfl | ⟨d, rfl, hrecord⟩
  · exact .undecoded hstatus hjson rfl
  · show Outcome timeout url _ _ (d.read v)
    cases hread : d.read v with
    | ok a => exact .decoded hstatus hjson rfl (Decoder.read_eq_ok_iff.mp hread)
    | error f =>
      obtain ⟨typeName, why, underlying, rfl⟩ := Decoder.failsOnly_read hrecord v f hread
      refine .rejected hstatus hjson rfl fun a ha => ?_
      rw [Decoder.read_eq_ok_iff.mpr ha] at hread
      cases hread

theorem outcome_unanswered (c : Client) (url : String) (decoder : Value) (why : Failure) :
    Outcome c.config.timeout url decoder (.failure why)
      (c.unanswered url why >>= Decoder.readAs decoder) := by
  cases why with
  | client e => exact .passed e
  | fault f =>
    unfold unanswered
    by_cases hcancel : f.isCancellation = true
    · simp only [hcancel, if_true]
      exact .cancelled hcancel
    · have hstays : f.isCancellation = false := Bool.not_eq_true _ ▸ hcancel
      simp only [hstays]
      rcases ErrorMapping.ofTransport_settles (.fault f) url (some c.config.timeout) with
        ⟨cause, underlying, hmap, hurl⟩ | ⟨g, hfamily, hshown, hmap⟩
      · rw [hmap]
        exact .unsent hstays hurl
      · rw [hmap]
        exact .escaped (.timeout hstays hfamily hshown)

theorem outcome_of_refused (timeout : Value) (url : String) (decoder : Value) {status : Int} (raw : Bytes)
    (hstatus : ¬(200 ≤ status ∧ status < 300)) :
    Outcome timeout url decoder (.response status raw)
      (ErrorMapping.ofResponse status raw (some url) >>= fun e => .error (.client e)) := by
  by_cases hdeep : Json.read (Text.ofUtf8 raw) = .error .tooDeep
  · rw [ErrorMapping.ofResponse_of_nested status raw url hdeep]
    exact .escaped (.nested hdeep)
  · obtain ⟨code, message, hstates, hmap⟩ := ErrorMapping.exists_ofResponse status raw url hdeep
    rw [hmap]
    rcases Nat.lt_or_ge status.natAbs Integer.textBound with hshown | hshown
    · rw [Value.integerText_of_lt hshown]
      exact .refused hstatus hstates hshown
    · rw [Value.integerText_of_le hshown]
      exact .escaped (.status hstatus hdeep hshown)

theorem outcome_reading (c : Client) (url : String) {decoder : Value}
    (hdecoder : IsRecordDecoder decoder) (reply : Reply) :
    Outcome c.config.timeout url decoder reply (c.reading url reply >>= Decoder.readAs decoder) := by
  cases reply with
  | failure why => exact outcome_unanswered c url decoder why
  | response status raw =>
    show Outcome _ url decoder _ (answered status raw url >>= _)
    unfold answered
    by_cases hsuccess : Hook.isSuccess status = true
    · have hstatus := (isSuccess_iff status).mp hsuccess
      rw [if_pos hsuccess]
      unfold Response.parseBody
      simp only
      cases hjson : Json.read (Text.ofUtf8 raw) with
      | ok v => exact outcome_of_value hdecoder hstatus hjson
      | error stop =>
        cases stop with
        | malformed => exact .notJson hstatus hjson
        | tooDeep => exact .escaped (.nested hjson)
    · rw [if_neg hsuccess, bind_assoc]
      exact outcome_of_refused _ url decoder raw fun h => hsuccess ((isSuccess_iff status).mpr h)

/-- The error of an outcome is recoverable exactly when it is worth another attempt, and it is so
exactly when the answer was transient. -/
theorem Outcome.recoverable {timeout : Value} {url : String} {decoder : Value} {reply : Reply}
    {e : ClientError} (h : Outcome timeout url decoder reply (.error (.client e)))
    (hfresh : reply ≠ .failure (.client e)) :
    e.recoverable = e.isRetryable ∧ (e.recoverable = true ↔ reply.IsTransient) := by
  cases h with
  | refused hstatus hstates =>
    refine ⟨ClientError.recoverable_eq_isRetryable rfl, ?_⟩
    rw [ClientError.recoverable_eq_isRetryable rfl, ClientError.isRetryable_api]
    exact isRetryableStatus_iff _
  | notJson hstatus hjson =>
    refine ⟨ClientError.recoverable_eq_isRetryable rfl, iff_of_false Bool.false_ne_true ?_⟩
    show ¬(_ ∨ _)
    omega
  | rejected hstatus hjson hdecoder hrejects =>
    refine ⟨ClientError.recoverable_eq_isRetryable rfl, iff_of_false Bool.false_ne_true ?_⟩
    show ¬(_ ∨ _)
    omega
  | passed => exact absurd rfl hfresh
  | unsent h hurl => exact ⟨ClientError.recoverable_eq_isRetryable rfl, iff_of_true rfl trivial⟩

/-- A request whose URL and body can be written is sent once. Its result is what the reply means; no fault
ends it but a cancellation and those that escape. -/
theorem send_outcome {c : Client} (hhooks : c.hooks = []) {method url : String}
    {path body decoder params : Value} {text : Option String} (hdecoder : IsRecordDecoder decoder)
    (hurl : c.config.requestUrl path params = .ok url) (hbody : bodyText body = .ok text)
    (w : World Reply) :
    ∃ r, Course (c.send (.text method) path body decoder params) w r
        [.request (c.outgoing (Text.upper method) url text)] w.answers.tail ∧
      Outcome c.config.timeout url decoder (nextReply w.answers) r ∧
      (∀ f, r = .error (.fault f) → f.isCancellation = true ∧
          nextReply w.answers = .failure (.fault f) ∨
        Escapes c.config.timeout (nextReply w.answers) f) ∧
      ∀ e, r = .error (.client e) → nextReply w.answers ≠ .failure (.client e) →
        e.recoverable = e.isRetryable ∧
          (e.recoverable = true ↔ (nextReply w.answers).IsTransient) := by
  have houtcome := outcome_reading c url hdecoder (nextReply w.answers)
  refine ⟨_, course_send hhooks hurl hbody w, houtcome, ?_, ?_⟩
  · intro f hf
    rw [hf] at houtcome
    generalize nextReply w.answers = reply at houtcome ⊢
    cases houtcome with
    | cancelled h => exact .inl ⟨h, rfl⟩
    | escaped h => exact .inr h
  · intro e he hfresh
    rw [he] at houtcome
    exact houtcome.recoverable hfresh

/-- A busy service whose body is no text: the query may be repeated. -/
theorem send_busy : ∃ e, Course ((loopback (.int 30)).send (.text "get") (.text "/chains/chain_id")
      .null (.decoder (.response .chainId)) .null) (.start [.response 503 [0xff]] none)
      (.error (.client e))
      [.request ((loopback (.int 30)).outgoing (Text.upper "get")
        "http://127.0.0.1:18555/v1/chains/chain_id" none)] [] ∧
    e.recoverable = true ∧ e.isRetryable = true := by
  have hdecoder : IsRecordDecoder (.decoder (.response .chainId)) := .inr ⟨_, rfl, trivial⟩
  have hurl : (loopback (.int 30)).config.requestUrl (.text "/chains/chain_id") .null =
      .ok "http://127.0.0.1:18555/v1/chains/chain_id" := by cbv
  have hbody : bodyText .null = .ok none := rfl
  obtain ⟨r, hcourse, houtcome, hfault, hrecoverable⟩ := send_outcome rfl hdecoder hurl hbody
    (.start [.response 503 [0xff]] none)
  cases houtcome with
  | refused hstatus hstates =>
    obtain ⟨hsame, htransient⟩ := hrecoverable _ rfl Reply.noConfusion
    have htrue := htransient.mpr (.inr ⟨by decide, by decide⟩)
    exact ⟨_, hcourse, htrue, hsame ▸ htrue⟩
  | notJson hstatus => exact absurd hstatus (by decide)
  | rejected hstatus => exact absurd hstatus (by decide)
  | decoded hstatus => exact absurd hstatus (by decide)
  | undecoded hstatus => exact absurd hstatus (by decide)
  | escaped h =>
    cases h with
    | nested hjson =>
      have hmalformed : Json.read (Text.ofUtf8 [0xff]) = .error .malformed := rfl
      rw [hmalformed] at hjson
      cases hjson
    | status _ _ hshown => exact absurd hshown (Nat.not_le.mpr (Integer.lt_textBound (by decide)))

/-- The least natural number without a text. -/
def endless : Value := .int Integer.textBound

theorem display_endless : endless.display = .error .badValue :=
  Value.integerText_of_le (Nat.le_of_eq (Int.natAbs_natCast _).symm)

theorem requestUrl_endless (config : ClientConfig) (path name : String) :
    config.requestUrl (.text path) (.dict [(.text name, endless)]) = .error .badValue := by
  have hvalues : Url.presentValues [(.text name, endless)] = .error .badValue := by
    show (do let s ← endless.display.map Script.whole; _) = _
    rw [display_endless]
    rfl
  show (do let present ← Url.presentValues [(.text name, endless)]; _) = _
  rw [hvalues]
  rfl

/-- The body of twenty thousand lists, each inside the one before. -/
def nested : String := String.ofList (Json.brackets 20000 ++ List.replicate 20000 ']')

theorem read_nested : Json.read nested = .error .tooDeep :=
  Json.read_brackets (by decide) _

/-- A body that is nested too deep ends a request with a fault that is no error of the client. So does a
parameter without a text, before anything is sent, and a timeout without one when the transport gives up
waiting. -/
theorem send_nested :
    (Action.perform ((loopback (.int 30)).send (.text "GET") (.text "/x") .null .null .null)
        (.start [.response 200 (Text.utf8 nested)] none)).1 = .error (.fault .tooDeep) ∧
    Action.perform ((loopback (.int 30)).send (.text "GET") (.text "/x") .null .null
        (.dict [(.text "n", endless)])) (.start [] none) =
      (.error (.fault .badValue), .start [] none) ∧
    (Action.perform ((loopback endless).send (.text "GET") (.text "/x") .null .null .null)
        (.start [.failure (.fault (.outside (.named "ReadTimeout" "")))] none)).1 =
      .error (.fault .badValue) := by
  have hbody : bodyText .null = .ok none := rfl
  refine ⟨?_, ?_, ?_⟩
  · have hurl : (loopback (.int 30)).config.requestUrl (.text "/x") .null =
        .ok ((loopback (.int 30)).config.urlFor "/x") := rfl
    rw [(course_send rfl hurl hbody _).result]
    show (answered 200 (Text.utf8 nested) _ >>= _) = _
    rw [answered, if_pos (by decide), Response.parseBody, Text.ofUtf8_utf8]
    simp only [read_nested]
    rfl
  · rw [leaves_send_of_unwritable "GET" .null (.inl (requestUrl_endless _ "/x" "n"))]
    rfl
  · have hurl : (loopback endless).config.requestUrl (.text "/x") .null =
        .ok ((loopback endless).config.urlFor "/x") := rfl
    rw [(course_send rfl hurl hbody _).result]
    have hfamily : ErrorMapping.familyOf (.fault (.outside (.named "ReadTimeout" ""))) = .timeout := by
      decide
    have hshown : ErrorMapping.timeoutText (some endless) = .error .badValue := display_endless
    have hmap : ErrorMapping.ofTransport (.fault (.outside (.named "ReadTimeout" "")))
        ((loopback endless).config.urlFor "/x") (some endless) = .error (.fault .badValue) := by
      unfold ErrorMapping.ofTransport
      rw [hfamily, hshown]
      rfl
    show (do let e ← ErrorMapping.ofTransport _ _ (some endless); _) >>= _ = _
    rw [hmap]
    rfl

end Client

end LedgerClient
