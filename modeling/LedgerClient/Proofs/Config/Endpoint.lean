import LedgerClient.Proofs.Config.Rejection
import LedgerClient.Proofs.Url.Extension

/-!
# Where an endpoint is addressed

The URL of an endpoint has the scheme and the authority of the address. The endpoint stands behind the path
of the address when that is its last part; behind a query or a fragment it belongs to that one, so that
the path read from the URL is the path of the address alone. Slashes at the end of the address do not
matter.
-/

namespace LedgerClient.ClientConfig

/-! ## Slashes at the end -/

theorem exists_slashes (s : String) :
    ∃ tail, s = dropSlashes s ++ tail ∧ ∀ c ∈ tail.toList, c = '/' := by
  refine ⟨String.ofList (s.toList.rtakeWhile (· = '/')), ?_, ?_⟩
  · apply String.toList_inj.mp
    rw [String.toList_append, toList_dropSlashes, String.toList_ofList]
    exact List.rdropWhile_append_rtakeWhile.symm
  · intro c hc
    rw [String.toList_ofList] at hc
    have hslash := List.mem_rtakeWhile_imp (p := (· = '/')) hc
    exact of_decide_eq_true hslash

theorem dropSlashes_append {tail : String} (h : ∀ c ∈ tail.toList, c = '/') (s : String) :
    dropSlashes (s ++ tail) = dropSlashes s := by
  apply String.toList_inj.mp
  have hall : (tail.toList.reverse.dropWhile (· = '/')) = [] :=
    List.dropWhile_eq_nil_iff.mpr fun c hc => decide_eq_true (h c (List.mem_reverse.mp hc))
  rw [toList_dropSlashes, toList_dropSlashes, String.toList_append]
  unfold List.rdropWhile
  rw [List.reverse_append, List.dropWhile_append, hall]
  rfl

theorem dropSlashes_of_last {s : String} (h : s.toList.getLast? ≠ some '/') : dropSlashes s = s := by
  apply String.toList_inj.mp
  rw [toList_dropSlashes, List.rdropWhile_eq_self_iff]
  intro hne hlast
  rw [List.getLast?_eq_some_getLast hne, of_decide_eq_true hlast] at h
  exact h rfl

/-! ## Addresses and their paths -/

/-- An endpoint path with one leading slash at least. -/
def rooted (path : String) : String := if path.toList.head? = some '/' then path else "/" ++ path

theorem apiPath_eq (path : String) : apiPath path = "/v1" ++ rooted path := by
  unfold apiPath rooted
  split
  · rfl
  · exact String.append_assoc

theorem clean_apiPath (path : String) : Url.clean (apiPath path) = "/v1" ++ Url.clean (rooted path) := by
  rw [apiPath_eq, Url.clean_append]
  rfl

/-- What the URL `u` of an endpoint keeps of the address `s` with its parts `p`. -/
structure Keeps (s path : String) (p u : Url.Parts) : Prop where
  scheme : u.scheme = p.scheme
  authority : u.authority = p.authority
  inside : p.EndsInPath → u.EndsInPath
  behind : p.EndsInPath → (∀ c ∈ (dropSlashes s).toList.getLast?, Url.counts c = true) →
    u.path = dropSlashes p.path ++ "/v1" ++ Url.clean (rooted path)
  outside : ¬p.EndsInPath → u.path = p.path ∧ ∃ front,
    u.fragment = some (front ++ ("/v1" ++ Url.clean (rooted path))) ∨
      u.fragment = none ∧ u.query = some (front ++ ("/v1" ++ Url.clean (rooted path)))

variable {s : String} {p : Url.Parts}

/-- An endpoint behind an address without its slashes. -/
theorem keeps_extend {b : Url.Parts} (hb : Url.split? (dropSlashes s) = some b) (hweb : b.isWeb = true)
    {tail : String} (hslashes : ∀ c ∈ tail.toList, c = '/') (path : String) :
    Keeps s path (b.extend tail) (b.extend (Url.clean (apiPath path))) where
  scheme := by rw [Url.Parts.extend_scheme, Url.Parts.extend_scheme]
  authority := by rw [Url.Parts.extend_authority, Url.Parts.extend_authority]
  inside hend := (Url.Parts.endsInPath_extend _).mpr ((Url.Parts.endsInPath_extend _).mp hend)
  behind hend hcounts := by
    have hbase := (Url.Parts.endsInPath_extend _).mp hend
    have hlast := Url.getLast?_path hb hweb hbase (getLast?_dropSlashes s) hcounts
    rw [Url.Parts.extend_of_endsInPath _ hbase, Url.Parts.extend_of_endsInPath _ hbase]
    show b.path ++ _ = dropSlashes (b.path ++ tail) ++ "/v1" ++ _
    rw [dropSlashes_append hslashes, dropSlashes_of_last hlast, clean_apiPath, String.append_assoc]
  outside hend := by
    have hbase : ¬b.EndsInPath := fun hb => hend ((Url.Parts.endsInPath_extend _).mpr hb)
    rw [clean_apiPath]
    rcases Url.Parts.extend_of_not hbase with ⟨f, hf⟩ | ⟨hnone, q, hq⟩
    · rw [hf, hf]
      exact ⟨rfl, f, .inl rfl⟩
    · rw [hq, hq]
      exact ⟨rfl, q, .inr ⟨hnone, rfl⟩⟩

theorem exists_keeps (h : Url.split? s = some p) (hweb : p.isWeb = true) {path : String}
    (hmark : '?' ∉ path.toList) (hhash : '#' ∉ path.toList) :
    ∃ u, Url.split? (dropSlashes s ++ apiPath path) = some u ∧ Keeps s path p u := by
  obtain ⟨tail, hs, hslashes⟩ := exists_slashes s
  obtain ⟨b, hb, hbweb⟩ := Url.exists_split?_of_slashes hslashes (hs ▸ h) hweb
  obtain rfl : p = b.extend tail := by
    have hboth := Url.split?_slashes hb hbweb hslashes
    rw [← hs, h] at hboth
    exact Option.some.inj hboth
  have hroot : (apiPath path).toList.head? = some '/' := by
    rw [apiPath_eq, String.toList_append]
    rfl
  have hpath := Url.split?_append hb hbweb hroot (not_mem_apiPath hmark (by decide))
    (not_mem_apiPath hhash (by decide))
  exact ⟨_, hpath, keeps_extend hb hbweb hslashes path⟩

/-! ## The whole configuration -/

variable {env : Environment} {given : List (String × Value)} {c : ClientConfig}

/-- An address that is given anew takes the place of the one before. -/
theorem build_readdressed (env : Environment) (given : List (String × Value)) (v : Value) :
    (build env (("base_url_override", v) :: given)).2 = do
      let c ← (build env (withoutAddress given)).2
      let override ← checkUrl v
      return { c with baseUrlOverride := override } :=
  build_eq_bind env (("base_url_override", v) :: given)

/-- An address that was accepted is one of the web, and another such address would be accepted as well. -/
theorem web_of_build (hbuild : (build env given).2 = .ok c) (hs : c.baseUrlOverride = some s) :
    (∃ p, Url.split? s = some p ∧ p.isWeb = true) ∧
      ∀ {t q}, Url.split? t = some q → q.isWeb = true →
        (build env (("base_url_override", .text t) :: given)).2 =
          .ok { c with baseUrlOverride := some t } := by
  rw [build_eq_bind env given] at hbuild
  obtain ⟨others, hothers, hbuild⟩ := bind_eq_ok.mp hbuild
  obtain ⟨override, hurl, hc⟩ := bind_eq_ok.mp hbuild
  obtain rfl := Except.ok.inj hc
  obtain rfl : override = some s := hs
  constructor
  · rcases checkUrl_eq_ok_iff.mp hurl with ⟨-, hnone⟩ | ⟨_, p, -, hp, hweb, hsome⟩
    · cases hnone
    · obtain rfl := Option.some.inj hsome
      exact ⟨p, hp, hweb⟩
  · intro t q hq hqweb
    rw [build_readdressed, hothers]
    have haccepted : checkUrl (.text t) = .ok (some t) :=
      checkUrl_eq_ok_iff.mpr (.inr ⟨.whole t, q, rfl, hq, hqweb, rfl⟩)
    exact bind_eq_ok.mpr ⟨others, rfl, bind_eq_ok.mpr ⟨some t, haccepted, rfl⟩⟩

theorem urlFor_override {p : Url.Parts} (h : Url.split? s = some p) (hweb : p.isWeb = true)
    (c : ClientConfig) (path : String) :
    urlFor { c with baseUrlOverride := some s } path = dropSlashes s ++ apiPath path := by
  have hfull : s.isEmpty = false := by
    obtain ⟨x, hx, -⟩ := Url.exists_letter_of_isWeb h hweb
    rw [Bool.eq_false_iff, ne_eq, String.isEmpty_iff]
    rintro rfl
    cases hx
  unfold urlFor baseUrl
  rw [Option.filter_some, hfull]
  rfl

/-- The URL of an endpoint keeps the scheme and the authority of an address that was accepted. Where the
address ends in its path, the endpoint stands behind that path, which lost its slashes at the end unless a
tab or a line end is behind them, and there is neither query nor fragment; otherwise the endpoint is no part
of the path. Any slashes behind the address are accepted as well and give the same URL. -/
theorem urlFor_keeps (env : Environment) (given : List (String × Value)) (c : ClientConfig)
    (s path : String) (hbuild : (build env given).2 = .ok c) (hs : c.baseUrlOverride = some s)
    (hmark : '?' ∉ path.toList) (hhash : '#' ∉ path.toList) :
    ∃ p u, Url.split? s = some p ∧ p.isWeb = true ∧ Url.split? (c.urlFor path) = some u ∧
      Keeps s path p u ∧
      ∀ tail : String, (∀ x ∈ tail.toList, x = '/') →
        ∃ d, (build env (("base_url_override", .text (s ++ tail)) :: given)).2 = .ok d ∧
          d.urlFor path = c.urlFor path := by
  obtain ⟨⟨p, hp, hweb⟩, haccepted⟩ := web_of_build hbuild hs
  obtain ⟨u, hu, hkeeps⟩ := exists_keeps hp hweb hmark hhash
  have hurl : c.urlFor path = dropSlashes s ++ apiPath path := by
    have hover := urlFor_override hp hweb c path
    rw [← hs] at hover
    exact hover
  refine ⟨p, u, hp, hweb, by rw [hurl]; exact hu, hkeeps, ?_⟩
  intro tail hslashes
  have htail := Url.split?_slashes hp hweb hslashes
  have htailWeb : (p.extend tail).isWeb = true := by rw [Url.Parts.isWeb_extend, hweb]
  refine ⟨_, haccepted htail htailWeb, ?_⟩
  rw [urlFor_override htail htailWeb, dropSlashes_append hslashes, hurl]

/-- A path and slashes behind it. -/
def rootedAddress : List (String × Value) :=
  [("network", .text "local"), ("base_url_override", .text "http://node/api//")]

theorem urlFor_keeps_rooted :
    ∃ c u, (build [] rootedAddress).2 = .ok c ∧ Url.split? (c.urlFor "chains") = some u ∧
      u.scheme = "http" ∧ u.authority = "node" ∧ u.path = "/api/v1/chains" ∧ u.query = none := by
  obtain ⟨c, hc⟩ : ∃ c, (build [] rootedAddress).2 = .ok c := ⟨_, rfl⟩
  have hs : c.baseUrlOverride = some "http://node/api//" := by
    obtain rfl := Except.ok.inj hc
    rfl
  obtain ⟨p, u, hp, -, hu, hkeeps, -⟩ :=
    urlFor_keeps [] rootedAddress c "http://node/api//" "chains" hc hs (by decide) (by decide)
  obtain rfl : p = ⟨"http", "node", "/api//", none, none⟩ :=
    Option.some.inj (hp.symm.trans (by decide +kernel))
  have hend : Url.Parts.EndsInPath ⟨"http", "node", "/api//", none, none⟩ := ⟨rfl, rfl⟩
  refine ⟨c, u, hc, hu, hkeeps.scheme, hkeeps.authority, ?_, (hkeeps.inside hend).1⟩
  have hlast : (dropSlashes "http://node/api//").toList.getLast? = some 'i' := by decide +kernel
  have hcounts : ∀ x ∈ (dropSlashes "http://node/api//").toList.getLast?, Url.counts x = true := by
    rw [hlast]
    intro x hx
    obtain rfl := Option.some.inj hx
    rfl
  rw [hkeeps.behind hend hcounts]
  decide +kernel

/-- Behind a query the endpoint belongs to the query, and behind a fragment to the fragment. -/
theorem urlFor_swallowed :
    (∃ c, build [] [("network", .text "local"), ("base_url_override", .text "http://node?x=1")] =
        ([], .ok c) ∧
      Url.split? (c.urlFor "/chains/chain_id") =
        some ⟨"http", "node", "", some "x=1/v1/chains/chain_id", none⟩) ∧
      ∃ c, build [] [("network", .text "local"), ("base_url_override", .text "http://node/#top")] =
          ([], .ok c) ∧
        Url.split? (c.urlFor "/chains/chain_id") =
          some ⟨"http", "node", "/", none, some "top/v1/chains/chain_id"⟩ :=
  ⟨⟨_, rfl, by decide +kernel⟩, _, rfl, by decide +kernel⟩

end LedgerClient.ClientConfig
