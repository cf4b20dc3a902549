import LedgerClient.Proofs.Client.Exchange

/-!
# The order of hooks and request

The hooks are told about a request in their order, then it goes out, then they are told about the
response in their order. The first hook that fails is the last one that is told anything, and without a
response none is told about one. Nothing that comes back makes a second request go out.
-/

namespace LedgerClient.Client

open LedgerClient.Action Event

/-! ## One exchange -/

/-- What some hooks leave in the trace about one occasion. -/
def told (reaction : Hook → Reaction) (hooks : List Hook) : List Event :=
  (Hook.notesOf reaction hooks).map .note

/-- What a client remarks about a failure. -/
def remarked (remarks : List LogEntry) : List Event := remarks.map fun e => .note (.entry e)

theorem countP_isRequest_told (reaction : Hook → Reaction) (hooks : List Hook) :
    (told reaction hooks).countP isRequest = 0 := by
  rw [told, List.countP_map, List.countP_eq_zero]
  exact fun n _ => Bool.false_ne_true

theorem countP_isRequest_remarked (remarks : List LogEntry) :
    (remarked remarks).countP isRequest = 0 := by
  rw [remarked, List.countP_map, List.countP_eq_zero]
  exact fun e _ => Bool.false_ne_true

theorem map_note_remarks (remarks : List LogEntry) :
    (remarks.map Note.entry).map Event.note = remarked remarks := List.map_map

/-- The events of an exchange and its result, by what the hooks and the other side do. -/
inductive Sending (c : Client) (method url : String) (body : Option String) :
    Reply → Result Value → List Event → Prop where
  /-- A hook fails before the request: nothing goes out. -/
  | withheld {reply : Reply} {front back : List Hook} {h : Hook} {f : Failure}
      (hhooks : c.hooks = front ++ h :: back)
      (hfront : ∀ g ∈ front, (g.beforeRequest method url body).failure = none)
      (hfail : (h.beforeRequest method url body).failure = some f) :
      Sending c method url body reply (.error f)
        (told (fun g => g.beforeRequest method url body) (front ++ [h]))
  /-- No response arrives: no hook is told about one. -/
  | unanswered {why : Failure} {remarks : List LogEntry}
      (hbefore : ∀ g ∈ c.hooks, (g.beforeRequest method url body).failure = none) :
      Sending c method url body (.failure why) (c.unanswered url why)
        (told (fun g => g.beforeRequest method url body) c.hooks ++
          .request (c.outgoing method url body) :: remarked remarks)
  /-- A hook fails behind the response. -/
  | interrupted {status : Int} {raw : Bytes} {front back : List Hook} {h : Hook} {f : Failure}
      (hbefore : ∀ g ∈ c.hooks, (g.beforeRequest method url body).failure = none)
      (hhooks : c.hooks = front ++ h :: back)
      (hfront : ∀ g ∈ front, (g.afterResponse method url status (Text.ofUtf8 raw)).failure = none)
      (hfail : (h.afterResponse method url status (Text.ofUtf8 raw)).failure = some f) :
      Sending c method url body (.response status raw) (.error f)
        (told (fun g => g.beforeRequest method url body) c.hooks ++
          .request (c.outgoing method url body) ::
            told (fun g => g.afterResponse method url status (Text.ofUtf8 raw)) (front ++ [h]))
  /-- Every hook is told about request and response. -/
  | answered {status : Int} {raw : Bytes} {remarks : List LogEntry}
      (hbefore : ∀ g ∈ c.hooks, (g.beforeRequest method url body).failure = none)
      (hafter : ∀ g ∈ c.hooks,
        (g.afterResponse method url status (Text.ofUtf8 raw)).failure = none) :
      Sending c method url body (.response status raw) (answered status raw url)
        (told (fun g => g.beforeRequest method url body) c.hooks ++
          .request (c.outgoing method url body) ::
            (told (fun g => g.afterResponse method url status (Text.ofUtf8 raw)) c.hooks ++
              remarked remarks))

variable {c : Client} {method url : String} {body : Option String} {reply : Reply}
  {r : Result Value} {es : List Event}

/-- At most one request goes out, and none only because a hook fails before. -/
theorem Sending.countP_isRequest (h : Sending c method url body reply r es) :
    es.countP isRequest =
      if ∀ g ∈ c.hooks, (g.beforeRequest method url body).failure = none then 1 else 0 := by
  cases h with
  | @withheld _ front back h f hhooks _ hfail =>
    rw [if_neg, countP_isRequest_told]
    intro hall
    have hnone := hall h (by rw [hhooks]; exact List.mem_append_right front List.mem_cons_self)
    rw [hfail] at hnone
    exact Option.some_ne_none f hnone
  | unanswered hbefore =>
    rw [if_pos hbefore, List.countP_append, countP_isRequest_told, List.countP_cons_of_pos rfl,
      countP_isRequest_remarked]
  | interrupted hbefore =>
    rw [if_pos hbefore, List.countP_append, countP_isRequest_told, List.countP_cons_of_pos rfl,
      countP_isRequest_told]
  | answered hbefore =>
    rw [if_pos hbefore, List.countP_append, countP_isRequest_told, List.countP_cons_of_pos rfl,
      List.countP_append, countP_isRequest_told, countP_isRequest_remarked]

/-- Once the request is out, the reply decides what else is told and what the result is. -/
theorem exists_sending_of_permitted
    (hbefore : ∀ g ∈ c.hooks, (g.beforeRequest method url body).failure = none) (reply : Reply) :
    ∃ notes r, Leaves (c.conclude method url reply : Action Reply Value) r notes ∧
      Sending c method url body reply r
        (told (fun g => g.beforeRequest method url body) c.hooks ++
          .request (c.outgoing method url body) :: notes.map .note) := by
  cases reply with
  | failure why =>
    obtain ⟨remarks, hfail⟩ := c.leaves_failTransmission (ρ := Reply) method url why
    refine ⟨_, _, hfail, ?_⟩
    rw [map_note_remarks]
    exact .unanswered hbefore
  | response status raw =>
    obtain ⟨remarks, hconclude⟩ := c.leaves_conclude (ρ := Reply) method url (.response status raw)
    rcases Hook.all_or_first_failure
      (fun g => g.afterResponse method url status (Text.ofUtf8 raw)) c.hooks with
        hafter | ⟨front, h, back, f, hhooks, hfront, hfail⟩
    · have hverdict : Hook.verdict
          (c.hooks.map fun g => g.afterResponse method url status (Text.ofUtf8 raw)) = .ok () :=
        (Hook.verdict_eq_ok_iff _).mpr (List.forall_mem_map.mpr hafter)
      refine ⟨_, _, hconclude, ?_⟩
      rw [received, hverdict, heardAfter, Hook.heard_of_all hafter, List.map_append,
        map_note_remarks]
      exact .answered hbefore hafter
    · obtain ⟨hverdict, hheard⟩ := Hook.heard_of_first_failure back hfront hfail
      have hreact := Hook.leaves_react (ρ := Reply)
        (c.hooks.map fun g => g.afterResponse method url status (Text.ofUtf8 raw))
      rw [hhooks, hverdict, hheard, ← hhooks] at hreact
      exact ⟨_, _, hreact.bind_error _, .interrupted hbefore hhooks hfront hfail⟩

/-- Every exchange is one of these. -/
theorem exists_sending (c : Client) (method url : String) (body : Option String) (w : World Reply) :
    ∃ r es after, perform (c.exchange method url body) w = (r, after) ∧
      Sending c method url body (nextReply w.answers) r es ∧ after.events = w.events ++ es ∧
      after.answers = w.answers.drop (es.countP isRequest) := by
  rcases Hook.all_or_first_failure (fun g => g.beforeRequest method url body) c.hooks with
    hbefore | ⟨front, h, back, f, hhooks, hfront, hfail⟩
  · have hpermit : c.permission method url body = .ok () := permission_eq_ok_iff.mpr hbefore
    have hreact := Hook.leaves_react (ρ := Reply)
      (c.hooks.map fun g => g.beforeRequest method url body)
    rw [show Hook.verdict _ = _ from hpermit, Hook.heard_of_all hbefore] at hreact
    obtain ⟨notes, r, hconclude, hsending⟩ :=
      exists_sending_of_permitted hbefore (nextReply w.answers)
    have hperform : perform (c.exchange method url body) w =
        (r, (afterRequest (w.recordAll (told (fun g => g.beforeRequest method url body) c.hooks))
          (c.outgoing method url body)).recordAll (notes.map .note)) := by
      show perform (Hook.react _ >>= fun _ => transmit (c.outgoing method url body) >>= fun reply =>
        c.conclude method url reply) w = _
      rw [perform_bind_of_ok (hreact w), perform_bind_of_ok (perform_transmit _ _)]
      exact hconclude _
    refine ⟨r, _, _, hperform, hsending, ?_, ?_⟩
    · show w.events ++ _ ++ [_] ++ _ = _
      rw [List.append_assoc, List.append_assoc]
      rfl
    · rw [hsending.countP_isRequest, if_pos hbefore, List.drop_one]
      rfl
  · obtain ⟨hverdict, hheard⟩ := Hook.heard_of_first_failure back hfront hfail
    have hrefused : c.permission method url body = .error f := by
      rw [permission, hhooks]
      exact hverdict
    refine ⟨.error f, _, _, leaves_exchange_of_refused hrefused w, .withheld hhooks hfront hfail, ?_, ?_⟩
    · rw [hhooks, hheard]
      rfl
    · rw [countP_isRequest_told]
      rfl

/-! ## A request to a path -/

end LedgerClient.Client
