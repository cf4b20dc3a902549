import LedgerClient.Config.Client
import LedgerClient.Proofs.Url.Split
import LedgerClient.Proofs.Value.Order
import Mathlib.Data.List.DropRight

/-!
# What a configuration promises

A configuration that was built has a known network, an address to which a path can be appended, and
limits that were checked. A check refuses what is below its bound, so that it lets a float pass that is
no number: such a timeout or interval is the one that is not usable. A variable that cannot be read is as
good as one that is not set.
-/

namespace LedgerClient

/-! ## Variables that cannot be read -/

namespace Environment

/-- The environment without a variable. -/
def without (env : Environment) (name : String) : Environment := env.filter fun p => p.1 != name

theorem get?_without_self (env : Environment) (name : String) : (env.without name).get? name = none := by
  rw [get?, List.lookup_eq_none_iff]
  intro p hp
  have hne := (List.mem_filter.mp hp).2
  rw [bne_iff_ne] at hne
  exact bne_iff_ne.mpr hne.symm

theorem get?_without_of_ne (env : Environment) {name other : String} (h : other ≠ name) :
    (env.without name).get? other = env.get? other := by
  unfold get? without
  induction env with
  | nil => rfl
  | cons p rest ih =>
    obtain ⟨key, given⟩ := p
    by_cases hkey : key = name
    · subst hkey
      rw [List.filter_cons_of_neg (by simp), ih, List.lookup_cons, beq_false_of_ne h]
    · rw [List.filter_cons_of_pos (by simpa using hkey), List.lookup_cons, List.lookup_cons, ih]

theorem text?_without_of_ne (env : Environment) {name other : String} (h : other ≠ name) :
    (env.without name).text? other = env.text? other := by
  rw [text?, get?_without_of_ne env h, text?]

section

variable {α : Type} (env : Environment) (kind : String) (read : String → Option α) (shown : α → String)
  (default : α)

theorem number_without_of_ne {name other : String} (h : other ≠ name) :
    (env.without name).number kind other read shown default =
      env.number kind other read shown default := by
  unfold number
  rw [get?_without_of_ne env h]

/-- A number that cannot be read takes the default, as an unset one does. -/
theorem value_number_without {name given : String} (hset : env.get? name = some given)
    (hunreadable : read given = none) :
    ((env.without name).number kind name read shown default).value =
      (env.number kind name read shown default).value := by
  unfold number
  rw [get?_without_self, hset]
  simp only [hunreadable]

end

/-- A numeric variable is set to a text that its reader refuses. -/
inductive Unreadable (env : Environment) : String → Prop where
  | timeout {given : String} (hset : env.get? "ONEMONEY_TIMEOUT_SECONDS" = some given)
      (hread : Floating.read? given = none) : Unreadable env "ONEMONEY_TIMEOUT_SECONDS"
  | attempts {given : String} (hset : env.get? "ONEMONEY_POLL_MAX_ATTEMPTS" = some given)
      (hread : Integer.read? 10 given = none) : Unreadable env "ONEMONEY_POLL_MAX_ATTEMPTS"
  | interval {given : String} (hset : env.get? "ONEMONEY_POLL_INTERVAL_SECONDS" = some given)
      (hread : Floating.read? given = none) : Unreadable env "ONEMONEY_POLL_INTERVAL_SECONDS"

end Environment

/-! ## Settings for polling -/

/-- A check that refuses a value passes exactly when its verdict is negative. -/
theorem refusal_eq_ok_iff {verdict : Except Fault Bool} {v : Value} {e : String → ClientError} :
    (do if ← Result.ofFault verdict then Result.failDisplaying v e) = (.ok () : Result Unit) ↔
      verdict = .ok false := by
  rw [bind_eq_ok]
  constructor
  · rintro ⟨refused, hverdict, hcheck⟩
    rw [ofFault_eq_ok] at hverdict
    cases refused with
    | false => exact hverdict
    | true => exact absurd hcheck (failDisplaying_ne_ok _ _ _)
  · intro h
    exact ⟨false, ofFault_eq_ok.mpr h, rfl⟩

namespace PollConfig

/-- At least one attempt and no negative interval, unless one of them is no number. -/
structure Usable (p : PollConfig) : Prop where
  attempts : p.attempts.isAtLeast 1 = .ok true ∨ p.attempts.IsNaN
  interval : p.interval.isAtLeast 0 = .ok true ∨ p.interval.IsNaN

theorem checkBelow_eq_ok_iff {parameter : String} {bound : Nat} {v : Value} :
    checkBelow parameter bound v = .ok () ↔ v.isBelow bound = .ok false := refusal_eq_ok_iff

theorem check_eq_ok_iff {attempts interval : Value} {p : PollConfig} :
    check attempts interval = .ok p ↔
      attempts.isBelow 1 = .ok false ∧ interval.isBelow 0 = .ok false ∧ p = ⟨attempts, interval⟩ := by
  unfold check
  rw [bind_eq_ok]
  constructor
  · rintro ⟨_, hattempts, h⟩
    obtain ⟨_, hinterval, hp⟩ := bind_eq_ok.mp h
    exact ⟨checkBelow_eq_ok_iff.mp hattempts, checkBelow_eq_ok_iff.mp hinterval, (Except.ok.inj hp).symm⟩
  · rintro ⟨hattempts, hinterval, rfl⟩
    exact ⟨(), checkBelow_eq_ok_iff.mpr hattempts,
      bind_eq_ok.mpr ⟨(), checkBelow_eq_ok_iff.mpr hinterval, rfl⟩⟩

theorem usable_of_check {attempts interval : Value} {p : PollConfig}
    (h : check attempts interval = .ok p) : p.Usable := by
  obtain ⟨hattempts, hinterval, rfl⟩ := check_eq_ok_iff.mp h
  exact ⟨Value.isAtLeast_or_isNaN hattempts, Value.isAtLeast_or_isNaN hinterval⟩

variable {env : Environment} {attempts interval : Option Value} {p : PollConfig}

theorem usable_of_build (h : (build env attempts interval).2 = .ok p) : p.Usable := usable_of_check h

/-- The number of attempts in the environment is an integer. -/
theorem isAtLeast_attempts_of_build (h : (build env none interval).2 = .ok p) :
    p.attempts.isAtLeast 1 = .ok true := by
  obtain ⟨hattempts, -, rfl⟩ := check_eq_ok_iff.mp h
  rcases Value.isAtLeast_or_isNaN hattempts with hleast | ⟨x, hx, -⟩
  · exact hleast
  · cases hx

theorem build_without {name : String} (h : env.Unreadable name) (attempts interval : Option Value) :
    (build (env.without name) attempts interval).2 = (build env attempts interval).2 := by
  unfold build Environment.int Environment.float
  cases h with
  | timeout =>
    rw [env.number_without_of_ne _ _ _ _ (by decide), env.number_without_of_ne _ _ _ _ (by decide)]
  | attempts hset hread =>
    rw [env.number_without_of_ne _ _ _ _ (by decide : "ONEMONEY_POLL_INTERVAL_SECONDS" ≠ _)]
    cases attempts with
    | some v => rfl
    | none =>
      simp only [env.value_number_without _ _ _ _ hset hread]
  | interval hset hread =>
    rw [env.number_without_of_ne _ _ _ _ (by decide : "ONEMONEY_POLL_MAX_ATTEMPTS" ≠ _)]
    cases interval with
    | some v => rfl
    | none =>
      simp only [env.value_number_without _ _ _ _ hset hread]

end PollConfig

/-! ## Settings of a client -/

namespace Network

theorem find?_name_eq_some_iff {key : String} {n : Network} :
    all.find? (·.name = key) = some n ↔ n.name = key := by
  constructor
  · intro h
    simpa using List.find?_some h
  · rintro rfl
    cases n <;> decide

/-- A text names a network by its name in any case, between blanks. -/
theorem resolve_eq_ok_iff {v : Value} {n : Network} :
    resolve v = .ok n ↔ ∃ s, v = .text s ∧ n.name = Text.lower (Text.trim s) := by
  constructor
  · intro h
    unfold resolve at h
    split at h
    · next s =>
      cases hname : ofName? s with
      | none =>
        rw [hname] at h
        exact absurd h (failDisplaying_ne_ok _ _ _)
      | some m =>
        rw [hname] at h
        obtain rfl : m = n := Except.ok.inj h
        exact ⟨s, rfl, find?_name_eq_some_iff.mp hname⟩
    · exact absurd h (failDisplaying_ne_ok _ _ _)
  · rintro ⟨s, rfl, hname⟩
    have hfound : ofName? s = some n := by
      show all.find? (·.name = Text.lower (Text.trim s)) = some n
      rw [← hname]
      exact find?_name_eq_some_iff.mpr rfl
    show (ofName? s).elim (unknown (.text s)) .ok = .ok n
    rw [hfound]
    rfl

end Network

namespace ClientConfig

theorem checkTimeout_eq_ok_iff {v : Value} : checkTimeout v = .ok () ↔ v.isAtMost 0 = .ok false :=
  refusal_eq_ok_iff

theorem checkUrl_script (s : Script) :
    checkUrl s.toValue =
      match Url.split? s.mended with
      | none => .error (.fault .badValue)
      | some parts =>
        if parts.isWeb then .ok (some s.mended)
        else .error (.client (.invalidConfig "base_url" (.notUrl s.mended))) := by
  cases s with
  | whole s =>
    show (splitUrl s >>= fun parts => if parts.isWeb then pure (some s) else failUrl (.text s)) = _
    unfold splitUrl Script.mended
    cases Url.split? s with
    | none => rfl
    | some parts => rfl
  | torn t =>
    show (splitUrl t.mended >>= fun parts =>
      if parts.isWeb then pure (some t.mended) else failUrl (.torn t)) = _
    unfold splitUrl Script.mended
    cases Url.split? t.mended with
    | none => rfl
    | some parts => rfl

/-- An address that was accepted is absent or one of the web. -/
theorem checkUrl_eq_ok_iff {v : Value} {override : Option String} :
    checkUrl v = .ok override ↔ v = .null ∧ override = none ∨
      ∃ (s : Script) (parts : Url.Parts), v = s.toValue ∧ Url.split? s.mended = some parts ∧
        parts.isWeb = true ∧ override = some s.mended := by
  have hscript : ∀ s : Script, checkUrl s.toValue = .ok override →
      ∃ parts, Url.split? s.mended = some parts ∧ parts.isWeb = true ∧ override = some s.mended := by
    intro s h
    rw [checkUrl_script] at h
    split at h
    · cases h
    · next parts hparts =>
      split at h
      · next hweb => exact ⟨parts, hparts, hweb, (Except.ok.inj h).symm⟩
      · cases h
  constructor
  · intro h
    unfold checkUrl at h
    split at h
    · exact .inl ⟨rfl, (Except.ok.inj h).symm⟩
    · next s =>
      obtain ⟨parts, hparts⟩ := hscript (.whole s) h
      exact .inr ⟨.whole s, parts, rfl, hparts⟩
    · next t =>
      obtain ⟨parts, hparts⟩ := hscript (.torn t) h
      exact .inr ⟨.torn t, parts, rfl, hparts⟩
    · obtain ⟨_, _, h⟩ := bind_eq_ok.mp h
      obtain ⟨_, _, h⟩ := bind_eq_ok.mp h
      exact absurd h (failDisplaying_ne_ok _ _ _)
    · obtain ⟨_, _, h⟩ := bind_eq_ok.mp h
      obtain ⟨_, _, h⟩ := bind_eq_ok.mp h
      exact absurd h (failDisplaying_ne_ok _ _ _)
    · split at h
      · cases h
      · exact absurd h (failDisplaying_ne_ok _ _ _)
  · rintro (⟨rfl, rfl⟩ | ⟨s, parts, rfl, hparts, hweb, rfl⟩)
    · rfl
    · rw [checkUrl_script, hparts]
      exact if_pos hweb

theorem check_eq_ok_iff {network url timeout poll userAgent : Value} {c : ClientConfig} :
    check network url timeout poll userAgent = .ok c ↔
      Network.resolve network = .ok c.network ∧ timeout.isAtMost 0 = .ok false ∧
        checkUrl url = .ok c.baseUrlOverride ∧ c.timeout = timeout ∧ c.poll = poll ∧
        c.userAgent = userAgent := by
  unfold check
  rw [bind_eq_ok]
  constructor
  · rintro ⟨n, hn, h⟩
    obtain ⟨_, htimeout, h⟩ := bind_eq_ok.mp h
    obtain ⟨override, hurl, h⟩ := bind_eq_ok.mp h
    obtain rfl := Except.ok.inj h
    exact ⟨hn, checkTimeout_eq_ok_iff.mp htimeout, hurl, rfl, rfl, rfl⟩
  · rintro ⟨hn, htimeout, hurl, rfl, rfl, rfl⟩
    exact ⟨c.network, hn, bind_eq_ok.mpr ⟨(), checkTimeout_eq_ok_iff.mpr htimeout,
      bind_eq_ok.mpr ⟨c.baseUrlOverride, hurl, rfl⟩⟩⟩

/-! ## The address of the service -/

theorem toList_dropSlashes (s : String) :
    (dropSlashes s).toList = s.toList.rdropWhile (· = '/') := String.toList_ofList

theorem dropSlashes_ne_empty {s : String} {c : Char} (hc : c ∈ s.toList) (hslash : c ≠ '/') :
    dropSlashes s ≠ "" := by
  intro h
  have hnil : s.toList.rdropWhile (· = '/') = [] := by
    rw [← toList_dropSlashes, h]
    rfl
  exact hslash (of_decide_eq_true (List.rdropWhile_eq_nil_iff.mp hnil c hc))

theorem getLast?_dropSlashes (s : String) : (dropSlashes s).toList.getLast? ≠ some '/' := by
  rw [toList_dropSlashes]
  intro h
  have hmem : '/' ∈ (s.toList.rdropWhile (· = '/')).getLast? := h
  obtain ⟨hne, hlast⟩ := List.mem_getLast?_eq_getLast hmem
  have hnot := List.rdropWhile_last_not (· = '/') s.toList hne
  rw [← hlast] at hnot
  exact hnot (by decide)

theorem baseUrl_usable {c : ClientConfig} {url : Value} (h : checkUrl url = .ok c.baseUrlOverride) :
    c.baseUrl ≠ "" ∧ c.baseUrl.toList.getLast? ≠ some '/' := by
  refine ⟨?_, getLast?_dropSlashes _⟩
  have hletter : ∃ x ∈ ((c.baseUrlOverride.filter fun s => !s.isEmpty).getD
      c.network.baseUrl).toList, Url.isAsciiLetter x = true := by
    have hnetwork : ∃ x ∈ c.network.baseUrl.toList, Url.isAsciiLetter x = true := by
      refine ⟨'h', ?_, by decide⟩
      cases c.network <;> decide
    rcases checkUrl_eq_ok_iff.mp h with ⟨-, hnone⟩ | ⟨s, parts, -, hparts, hweb, hsome⟩
    · rw [hnone]
      exact hnetwork
    · rw [hsome, Option.filter_some]
      split
      · exact Url.exists_letter_of_isWeb hparts hweb
      · exact hnetwork
  obtain ⟨x, hx, hx'⟩ := hletter
  refine dropSlashes_ne_empty hx ?_
  rintro rfl
  exact absurd hx' (by decide)

theorem not_mem_apiPath {path : String} {mark : Char} (hpath : mark ∉ path.toList)
    (hown : mark ≠ '/' ∧ mark ≠ 'v' ∧ mark ≠ '1') : mark ∉ (apiPath path).toList := by
  unfold apiPath apiVersion
  split
  · simp [hpath, hown]
  · simp [hpath, hown]

/-! ## The whole configuration -/

variable {env : Environment} {given : List (String × Value)} {c : ClientConfig}

/-- What is built has passed the check of its settings, and its polling settings are those that were given
or those of the environment. -/
theorem exists_check_of_build (h : (build env given).2 = .ok c) :
    ∃ url timeout poll userAgent,
      check ((given.lookup "network").getD (textSetting env "ONEMONEY_NETWORK" (.text "mainnet")))
        url timeout poll userAgent = .ok c ∧
      (given.lookup "poll" = some poll ∨ given.lookup "poll" = none ∧
        ∃ p, (PollConfig.build env none none).2 = .ok p ∧ poll = p.toValue) := by
  unfold build at h
  split at h
  · cases h
  · cases hpoll : given.lookup "poll" with
    | some v =>
      simp only [hpoll] at h
      obtain ⟨poll, hv, hcheck⟩ := bind_eq_ok.mp h
      obtain rfl := Except.ok.inj hv
      exact ⟨_, _, _, _, hcheck, .inl rfl⟩
    | none =>
      simp only [hpoll] at h
      obtain ⟨poll, hbuilt, hcheck⟩ := bind_eq_ok.mp h
      obtain ⟨p, hp, rfl⟩ := map_eq_ok.mp hbuilt
      exact ⟨_, _, _, _, hcheck, .inr ⟨rfl, p, hp, rfl⟩⟩

theorem textSetting_without {name other : String} (h : other ≠ name) (default : Value) :
    textSetting (env.without name) other default = textSetting env other default := by
  rw [textSetting, Environment.text?_without_of_ne env h, textSetting]

theorem value_timeout_without {name : String} (h : env.Unreadable name) (default : Float) :
    ((env.without name).float "ONEMONEY_TIMEOUT_SECONDS" default).value =
      (env.float "ONEMONEY_TIMEOUT_SECONDS" default).value := by
  unfold Environment.float
  cases h with
  | timeout hset hread => exact env.value_number_without _ _ _ _ hset hread
  | attempts => rw [env.number_without_of_ne _ _ _ _ (by decide)]
  | interval => rw [env.number_without_of_ne _ _ _ _ (by decide)]

theorem build_without {name : String} (h : env.Unreadable name) (given : List (String × Value)) :
    (build (env.without name) given).2 = (build env given).2 := by
  have hpoll := PollConfig.build_without h none none
  have hnetwork : "ONEMONEY_NETWORK" ≠ name := by cases h <;> decide
  have hurl : "ONEMONEY_BASE_URL" ≠ name := by cases h <;> decide
  unfold build
  rw [textSetting_without hnetwork, textSetting_without hurl]
  split
  · rfl
  · cases given.lookup "timeout_seconds" with
    | some timeout =>
      cases given.lookup "poll" with
      | some poll => rfl
      | none => simp only [hpoll]
    | none =>
      cases given.lookup "poll" with
      | some poll => simp only [value_timeout_without h]
      | none => simp only [hpoll, value_timeout_without h]

/-- A configuration that was built has the network that its text names, with the chain id of that network,
and an address that is not empty and has no slash at its end; its timeout is positive unless it is no
number. Polling settings that were built have at least one attempt and no negative interval, unless one
of them is no number, and the environment gives no such number of attempts. A numeric variable that
cannot be read counts as unset. -/
theorem build_usable (env : Environment) (given : List (String × Value))
    (attempts interval : Option Value) :
    (∀ c, (build env given).2 = .ok c →
      (c.timeout.isAbove 0 = .ok true ∨ c.timeout.IsNaN) ∧
      (∃ s, (given.lookup "network").getD (textSetting env "ONEMONEY_NETWORK" (.text "mainnet")) =
        .text s ∧ c.network.name = Text.lower (Text.trim s)) ∧
      c.network ∈ Network.all ∧ c.chainId = c.network.chainId ∧
      c.baseUrl ≠ "" ∧ c.baseUrl.toList.getLast? ≠ some '/' ∧
      (given.lookup "poll" = some c.poll ∨ given.lookup "poll" = none ∧
        ∃ p, (PollConfig.build env none none).2 = .ok p ∧ c.poll = p.toValue)) ∧
    (∀ p, (PollConfig.build env attempts interval).2 = .ok p →
      p.Usable ∧ (attempts = none → p.attempts.isAtLeast 1 = .ok true)) ∧
    ∀ name, env.Unreadable name →
      (build (env.without name) given).2 = (build env given).2 ∧
      (PollConfig.build (env.without name) attempts interval).2 =
        (PollConfig.build env attempts interval).2 := by
  refine ⟨?_, ?_, ?_⟩
  · intro c h
    obtain ⟨url, timeout, poll, userAgent, hcheck, hpoll⟩ := exists_check_of_build h
    obtain ⟨hnetwork, htimeout, hurl, rfl, rfl, -⟩ := check_eq_ok_iff.mp hcheck
    obtain ⟨hne, hlast⟩ := baseUrl_usable hurl
    exact ⟨Value.isAbove_or_isNaN htimeout, Network.resolve_eq_ok_iff.mp hnetwork, c.network.mem_all,
      rfl, hne, hlast, hpoll⟩
  · intro p h
    refine ⟨PollConfig.usable_of_build h, ?_⟩
    rintro rfl
    exact PollConfig.isAtLeast_attempts_of_build h
  · intro name h
    exact ⟨build_without h given, PollConfig.build_without h attempts interval⟩

/-- An address of its own, a network between blanks and a timeout that is no numeral. -/
def deployed : Environment :=
  [("ONEMONEY_NETWORK", " TestNet "), ("ONEMONEY_BASE_URL", "http://node//"),
    ("ONEMONEY_TIMEOUT_SECONDS", "soon")]

theorem build_usable_of_deployed :
    ∃ c, (build deployed []).2 = .ok c ∧
      (build (deployed.without "ONEMONEY_TIMEOUT_SECONDS") []).2 = .ok c ∧
      (c.timeout.isAbove 0 = .ok true ∨ c.timeout.IsNaN) ∧
      c.network = .testnet ∧ c.chainId = 1212101 ∧ c.baseUrl ≠ "" ∧
      c.baseUrl.toList.getLast? ≠ some '/' ∧
      ∃ p, c.poll = PollConfig.toValue p ∧ p.Usable ∧ p.attempts.isAtLeast 1 = .ok true := by
  obtain ⟨hclient, hpolling, hunset⟩ := build_usable deployed [] none none
  have hunreadable : deployed.Unreadable "ONEMONEY_TIMEOUT_SECONDS" := .timeout rfl (by rfl)
  obtain ⟨c, hc⟩ : ∃ c, (build deployed []).2 = .ok c := ⟨_, rfl⟩
  obtain ⟨htimeout, ⟨s, hs, hname⟩, -, hchain, hne, hlast, hpoll⟩ := hclient c hc
  obtain rfl : " TestNet " = s := Value.text.inj hs
  have hnetwork : c.network = .testnet := by
    have hkey : Text.lower (Text.trim " TestNet ") = "testnet" := by decide +kernel
    rw [hkey] at hname
    cases hn : c.network with
    | testnet => rfl
    | mainnet =>
      rw [hn] at hname
      exact absurd hname (by decide)
    | loopback =>
      rw [hn] at hname
      exact absurd hname (by decide)
  rcases hpoll with hgiven | ⟨-, p, hp, hpoll⟩
  · cases hgiven
  · obtain ⟨husable, hattempts⟩ := hpolling p hp
    refine ⟨c, hc, (hunset _ hunreadable).1.trans hc, htimeout, hnetwork, ?_, hne, hlast, p, hpoll,
      husable, hattempts rfl⟩
    rw [hchain, hnetwork]
    rfl

/-- A float that is no number is neither at most zero nor below it, so both checks let it pass; a timeout
of this kind is not positive, and an interval of this kind is not at least zero. -/
theorem build_not_a_number :
    ∃ c p, build [("ONEMONEY_TIMEOUT_SECONDS", "nan")] [("network", .text "local")] = ([], .ok c) ∧
      c.timeout.isAbove 0 = .ok false ∧
      PollConfig.build [("ONEMONEY_POLL_INTERVAL_SECONDS", "nan")] none none = ([], .ok p) ∧
      p.interval.isAtLeast 0 = .ok false :=
  ⟨_, _, rfl, rfl, rfl, rfl⟩

end ClientConfig

end LedgerClient
