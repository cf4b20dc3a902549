import LedgerClient.Client.Queries
import LedgerClient.Proofs.Client.Order
import LedgerClient.Proofs.Config
import LedgerClient.Proofs.Url.Parameters

/-!
# What a query asks

The URL of a request says which parameters the caller gave and nothing else: read as a form, its query is
the list of the present parameters with their texts. So no text that a caller passes, a hash for example,
adds a parameter, takes one away or begins a fragment. With a lone half in a present parameter, in its name
as in its value, there is no URL.
-/

namespace LedgerClient

namespace ClientConfig

/-- A mark in the URL of an endpoint is one of the service's address or of the path. -/
theorem not_mem_urlFor {c : ClientConfig} {path : String} {mark : Char}
    (hbase : mark ∉ c.baseUrl.toList) (hpath : mark ∉ path.toList)
    (hown : mark ≠ '/' ∧ mark ≠ 'v' ∧ mark ≠ '1') : mark ∉ (c.urlFor path).toList := by
  rw [urlFor, String.toList_append, List.mem_append]
  rintro (h | h)
  · exact hbase h
  · exact not_mem_apiPath hpath hown h

theorem requestUrl_of_tells (c : ClientConfig) (path : String) {params : List (Script × Value)}
    {pairs : List (String × String)} (h : Url.Tells params (Url.wholes pairs)) :
    c.requestUrl (.text path) (Url.mapping params) = .ok (Url.withQuery (c.urlFor path) pairs) :=
  (Url.withParameters_of_tells _ h).1 pairs rfl

theorem requestUrl_of_anyTorn (c : ClientConfig) (path : String) {params : List (Script × Value)}
    {texts : List (Script × Script)} (h : Url.Tells params texts) (htorn : Url.AnyTorn texts) :
    c.requestUrl (.text path) (Url.mapping params) = .error .unencodable :=
  (Url.withParameters_of_tells _ h).2 htorn

/-- Behind an address and a path without marks the query is a part of its own, and the other parts are
those of the endpoint. -/
theorem split?_withQuery {c : ClientConfig} {path : String}
    (hpath : '?' ∉ path.toList ∧ '#' ∉ path.toList) {pairs : List (String × String)} (hne : pairs ≠ [])
    (hmark : '?' ∉ c.baseUrl.toList) (hhash : '#' ∉ c.baseUrl.toList) {parts : Url.Parts}
    (hparts : Url.split? (c.urlFor path) = some parts) :
    parts.query = none ∧ parts.fragment = none ∧
      Url.split? (c.urlFor path ++ "?" ++ String.ofList (Url.query pairs)) =
        some { parts with query := some (String.ofList (Url.query pairs)) } := by
  have hplain : ∀ ch ∈ Url.query pairs, 32 < ch.toNat := fun ch hch => Url.lt_of_mem_query hch
  have hfragment : '#' ∉ Url.query pairs := Url.not_mem_query (by decide) (by decide) (by decide) pairs
  have hcolon : ':' ∉ Url.query pairs := Url.not_mem_query (by decide) (by decide) (by decide) pairs
  rw [← Url.withQuery_of_ne_nil _ hne, Url.split?, Url.toList_withQuery _ hne]
  exact Url.splitChars_append (not_mem_urlFor hmark hpath.1 (by decide))
    (not_mem_urlFor hhash hpath.2 (by decide)) hplain hcolon hfragment hparts

end ClientConfig

namespace Client

open LedgerClient.Action Event

/-! ## Requests of a query -/

/-- Whatever goes out in an exchange is its one request. -/
theorem Sending.eq_outgoing {c : Client} {method url : String} {body : Option String} {reply : Reply}
    {result : Result Value} {es : List Event} (h : Sending c method url body reply result es)
    {r : Request} (hr : .request r ∈ es) : r = c.outgoing method url body := by
  have htold : ∀ (reaction : Hook → Reaction) (hooks : List Hook), .request r ∉ told reaction hooks := by
    intro reaction hooks hmem
    obtain ⟨n, -, hn⟩ := List.mem_map.mp hmem
    cases hn
  have hremarked : ∀ remarks : List LogEntry, .request r ∉ remarked remarks := by
    intro remarks hmem
    obtain ⟨e, -, he⟩ := List.mem_map.mp hmem
    cases he
  cases h with
  | withheld => exact absurd hr (htold _ _)
  | unanswered =>
    rcases List.mem_append.mp hr with h | h
    · exact absurd h (htold _ _)
    · rcases List.mem_cons.mp h with h | h
      · exact Event.request.inj h
      · exact absurd h (hremarked _)
  | interrupted =>
    rcases List.mem_append.mp hr with h | h
    · exact absurd h (htold _ _)
    · rcases List.mem_cons.mp h with h | h
      · exact Event.request.inj h
      · exact absurd h (htold _ _)
  | answered =>
    rcases List.mem_append.mp hr with h | h
    · exact absurd h (htold _ _)
    · rcases List.mem_cons.mp h with h | h
      · exact Event.request.inj h
      · rcases List.mem_append.mp h with h | h
        · exact absurd h (htold _ _)
        · exact absurd h (hremarked _)

/-- All that goes out is a request to the path whose query, read as a form, is the given one; without
hooks exactly one goes out. -/
def Asks {α : Type} (c : Client) (a : Action Reply α) (path : String)
    (pairs : List (String × String)) : Prop :=
  ∀ w : World Reply, ∃ es q, (perform a w).2.events = w.events ++ es ∧ Url.form q = pairs ∧
    (∀ r, .request r ∈ es → r.method = "GET" ∧ r.body = none ∧
      r.url = c.config.urlFor path ++ "?" ++ String.ofList q) ∧
    (c.hooks = [] → es.countP isRequest = 1)

theorem asks_query (c : Client) (path : String) {pairs : List (String × String)} (hne : pairs ≠ []) :
    c.Asks (c.query path (pairs.map fun p => (p.1, .text p.2))) path pairs := by
  intro w
  have hurl := c.config.requestUrl_of_tells path (Url.tells_texts pairs)
  have hexchange : c.query path (pairs.map fun p => (p.1, .text p.2)) =
      c.exchange "GET" (Url.withQuery (c.config.urlFor path) pairs) none := by
    refine request_eq_exchange ?_ rfl
    rw [Url.record_eq_mapping, List.map_map]
    exact hurl
  obtain ⟨result, es, after, hperform, hsending, hevents, -⟩ :=
    c.exists_sending "GET" (Url.withQuery (c.config.urlFor path) pairs) none w
  refine ⟨es, Url.query pairs, ?_, Url.form_query pairs, ?_, ?_⟩
  · rw [hexchange, hperform]
    exact hevents
  · intro r hr
    rw [hsending.eq_outgoing hr]
    exact ⟨rfl, rfl, Url.withQuery_of_ne_nil _ hne⟩
  · intro hhooks
    rw [hsending.countP_isRequest, if_pos]
    rw [hhooks]
    exact List.forall_mem_nil _

theorem Asks.bind_ofResult {α β : Type} {c : Client} {a : Action Reply α} {path : String}
    {pairs : List (String × String)} (h : c.Asks a path pairs) (f : α → Result β) :
    c.Asks (a >>= fun x => ofResult (f x)) path pairs := by
  intro w
  rw [perform_bind_ofResult]
  exact h w

/-! ## Reading the URL back -/

/-- The text of a flag in a query. -/
def flagText (full : Value) : String := if full.truthy then "true" else "false"

/-- A request's URL is that of its endpoint, with a query exactly when a parameter is present. The query
says the present parameters, none of them is lost or made up by what another one holds, no fragment
begins in it, and other parameters make another URL. So a query by hash asks for that very hash. Only a
lone half among the names and the texts of the present parameters keeps a request from having a URL. -/
theorem requestUrl_reads_back (c : Client) {path : String} {params : List (Script × Value)}
    (hpath : '?' ∉ path.toList ∧ '#' ∉ path.toList)
    (htext : ∀ p ∈ params, p.2.isNull = false → ∃ s, p.2.script = .ok s) :
    c.config.requestUrl (.text path) .null = .ok (c.config.urlFor path) ∧
    ∃ texts, Url.Tells params texts ∧
      (Url.AnyTorn texts →
        c.config.requestUrl (.text path) (Url.mapping params) = .error .unencodable) ∧
      ((∀ t ∈ texts, t.1.isTorn = false ∧ t.2.isTorn = false) → ∃ pairs, texts = Url.wholes pairs ∧
        (pairs = [] →
          c.config.requestUrl (.text path) (Url.mapping params) = .ok (c.config.urlFor path)) ∧
        (pairs ≠ [] → ∃ q,
          c.config.requestUrl (.text path) (Url.mapping params) =
            .ok (c.config.urlFor path ++ "?" ++ String.ofList q) ∧
          Url.form q = pairs ∧ '#' ∉ q ∧
          ('?' ∉ c.config.baseUrl.toList → '#' ∉ c.config.baseUrl.toList →
            ∀ parts, Url.split? (c.config.urlFor path) = some parts →
              parts.query = none ∧ parts.fragment = none ∧
              Url.split? (c.config.urlFor path ++ "?" ++ String.ofList q) =
                some { parts with query := some (String.ofList q) })) ∧
        ∀ others found, Url.Tells others found →
          (c.config.requestUrl (.text path) (Url.mapping others) =
            c.config.requestUrl (.text path) (Url.mapping params) ↔ found = texts)) ∧
      ∀ (hash : String) (full : Value),
        c.Asks (c.transaction (.text hash)) "/transactions/by_hash" [("hash", hash)] ∧
        c.Asks (c.receipt (.text hash)) "/transactions/receipt/by_hash" [("hash", hash)] ∧
        c.Asks (c.checkpointByHash (.text hash) full) "/checkpoints/by_hash"
          [("hash", hash), ("full", flagText full)] := by
  obtain ⟨texts, htells⟩ := Url.exists_tells htext
  refine ⟨rfl, texts, htells, c.config.requestUrl_of_anyTorn path htells, ?_, ?_⟩
  swap
  · intro hash full
    exact ⟨(c.asks_query _ (List.cons_ne_nil ("hash", hash) [])).bind_ofResult _,
      (c.asks_query _ (List.cons_ne_nil ("hash", hash) [])).bind_ofResult _,
      (c.asks_query _ (List.cons_ne_nil ("hash", hash) [("full", flagText full)])).bind_ofResult _⟩
  intro hwhole
  obtain ⟨pairs, rfl⟩ := Url.exists_wholes hwhole
  have hurl := c.config.requestUrl_of_tells path htells
  refine ⟨pairs, rfl, ?_, ?_, ?_⟩
  · rintro rfl
    exact hurl
  · intro hne
    refine ⟨Url.query pairs, ?_, Url.form_query pairs,
      Url.not_mem_query (by decide) (by decide) (by decide) pairs, ?_⟩
    · rw [hurl, Url.withQuery_of_ne_nil _ hne]
    · intro hmark hhash parts hparts
      exact ClientConfig.split?_withQuery hpath hne hmark hhash hparts
  · intro others found hothers
    rw [hurl]
    rcases Url.exists_wholes_or_anyTorn found with ⟨said, rfl⟩ | htorn
    · rw [c.config.requestUrl_of_tells path hothers, Except.ok.injEq]
      exact ⟨fun h => congrArg Url.wholes (Url.withQuery_injective h),
        fun h => by rw [Url.wholes_injective h]⟩
    · rw [c.config.requestUrl_of_anyTorn path hothers htorn]
      refine iff_of_false error_ne_ok ?_
      rintro rfl
      exact Url.not_anyTorn_wholes pairs htorn

/-- A hash that pretends to end its parameter, to set another one and to begin a fragment. -/
def crafted : List (Script × Value) :=
  [("hash", .text "0xab&full=true#%41+ b"), ("full", .null), ("number", .int 7)]

/-- The path and the parameters have what the law asks for, and the hash stays one value. -/
theorem requestUrl_of_crafted :
    ('?' ∉ "/transactions/by_hash".toList ∧ '#' ∉ "/transactions/by_hash".toList) ∧
    (∀ p ∈ crafted, p.2.isNull = false → ∃ s, p.2.script = .ok s) ∧
    ∃ q parts, (loopback (.int 30)).config.requestUrl (.text "/transactions/by_hash")
        (Url.mapping crafted) =
        .ok ((loopback (.int 30)).config.urlFor "/transactions/by_hash" ++ "?" ++ String.ofList q) ∧
      Url.form q = [("hash", "0xab&full=true#%41+ b"), ("number", "7")] ∧
      Url.split? ((loopback (.int 30)).config.urlFor "/transactions/by_hash" ++ "?" ++
        String.ofList q) = some parts ∧
      parts.path = "/v1/transactions/by_hash" ∧ parts.query = some (String.ofList q) ∧
      parts.fragment = none := by
  have hpath : '?' ∉ "/transactions/by_hash".toList ∧ '#' ∉ "/transactions/by_hash".toList := by
    decide
  have hnumber : (Value.int 7).script = .ok (.whole "7") := by decide +kernel
  have htext : ∀ p ∈ crafted, p.2.isNull = false → ∃ s, p.2.script = .ok s := by
    simp only [crafted, List.forall_mem_cons]
    exact ⟨fun _ => ⟨_, rfl⟩, fun hnull => absurd hnull (by decide), fun _ => ⟨_, hnumber⟩,
      List.forall_mem_nil _⟩
  refine ⟨hpath, htext, ?_⟩
  obtain ⟨-, texts, htells, -, hwhole, -⟩ := requestUrl_reads_back (loopback (.int 30)) hpath htext
  have htexts : texts = Url.wholes [("hash", "0xab&full=true#%41+ b"), ("number", "7")] :=
    htells.unique (.present _ rfl rfl (.absent _ (.present _ rfl hnumber .nil)))
  subst htexts
  obtain ⟨pairs, hpairs, -, hquery, -⟩ := hwhole (by decide)
  obtain rfl := Url.wholes_injective hpairs
  obtain ⟨q, hurl, hform, -, hread⟩ := hquery (List.cons_ne_nil _ _)
  have hbase : (loopback (.int 30)).config.baseUrl = "http://127.0.0.1:18555" := by decide +kernel
  have hsplit : Url.split? ((loopback (.int 30)).config.urlFor "/transactions/by_hash") =
      some ⟨"http", "127.0.0.1:18555", "/v1/transactions/by_hash", none, none⟩ := by decide +kernel
  obtain ⟨-, -, hparts⟩ := hread (by rw [hbase]; decide) (by rw [hbase]; decide) _ hsplit
  exact ⟨q, _, hurl, hform, hparts, rfl, rfl, rfl⟩

/-- A lone half in the name of a parameter leaves no URL, though the value is an ordinary text. -/
theorem requestUrl_of_torn_name :
    (loopback (.int 30)).config.requestUrl (.text "/x")
      (.dict [(.torn ⟨[.half ⟨0xD800, by decide⟩], rfl⟩, .text "x")]) = .error .unencodable := rfl

end Client

end LedgerClient
