import LedgerClient.Proofs.Config
import LedgerClient.Proofs.Number.Literal

/-!
# How settings are rejected

Settings of the declared types are rejected by an error about the configuration and by nothing else, as
long as the address in force can be cut into its parts. An address of which the authority is malformed
cannot: there a bad value takes the place of the error. An address without an authority is always
rejected, but an authority need not name a host.
-/

namespace LedgerClient

/-- The failure is an error about the configuration. -/
def Failure.IsConfiguration (f : Failure) : Prop := ∃ cause, f = .client (.configuration cause)

theorem failsOnly_invalidConfig {α : Type} {v : Value} {s : String} (h : v.display = .ok s)
    (parameter : String) (why : String → ConfigReason) :
    FailsOnly Failure.IsConfiguration
      (Result.failDisplaying v fun shown => .invalidConfig parameter (why shown) : Result α) := by
  unfold Result.failDisplaying
  rw [h]
  exact .error ⟨_, rfl⟩

/-! ## Numbers as settings -/

theorem Integer.Numeral.digit_lt {base : Nat} {cs : List Char} {ds : List Nat}
    (h : Numeral base cs ds) : ∀ d ∈ ds, d < base := by
  induction h with
  | last hc => exact List.forall_mem_singleton.mpr (digitIn?_lt hc)
  | cons hc _ ih => exact List.forall_mem_cons.mpr ⟨digitIn?_lt hc, ih⟩
  | group hc _ ih => exact List.forall_mem_cons.mpr ⟨digitIn?_lt hc, ih⟩

/-- What the decimal reader accepts has few enough digits to be shown. -/
theorem Integer.natAbs_lt_of_read? {s : String} {n : Int} (h : read? 10 s = some n) :
    n.natAbs < textBound := by
  have hdigits : ∀ {cs m}, readDigits 10 cs = some m → m < textBound := by
    intro cs m hm
    obtain ⟨ds, hds, hlength, rfl⟩ := readDigits_ten_eq_some_iff.mp hm
    unfold textBound
    exact Nat.lt_of_lt_of_le (ofDigits_lt hds.digit_lt) (Nat.pow_le_pow_right (by decide) hlength)
  have hsigned : Signed (fun _ m => m < textBound) s.toList n := signed_of_readSigned hdigits h
  generalize s.toList = cs at hsigned
  cases hsigned with
  | positive _ _ hm _ => exact hm
  | negative _ hm _ =>
    rw [Int.natAbs_neg]
    exact hm

namespace Value

/-- A number that has an order and a text. -/
inductive IsSetting : Value → Prop where
  | int {n : Int} (hshown : n.natAbs < Integer.textBound) : IsSetting (.int n)
  | bool (b : Bool) : IsSetting (.bool b)
  | float (x : Float) : IsSetting (.float x)
  | decimal {d : Decimal} (hnumber : ¬d.IsNaN) : IsSetting (.decimal d)

theorem IsSetting.exists_display {v : Value} (h : v.IsSetting) : ∃ s, v.display = .ok s := by
  cases h with
  | int hshown => exact ⟨_, integerText_of_lt hshown⟩
  | _ => exact ⟨_, rfl⟩

theorem IsSetting.exists_orderWith {v : Value} (h : v.IsSetting) (n : Int) :
    ∃ o, v.orderWith n = .ok o := by
  cases h with
  | decimal hnumber =>
    obtain ⟨o, ho⟩ := Decimal.exists_compareInt? hnumber n
    rw [orderWith, ho]
    exact ⟨_, rfl⟩
  | _ => exact ⟨_, rfl⟩

end Value

/-- A check of a number refuses it by an error about the configuration. -/
theorem failsOnly_refusal {verdict : Except Fault Bool} {b : Bool} (hverdict : verdict = .ok b)
    {v : Value} (h : v.IsSetting) (parameter : String) (why : String → ConfigReason) :
    FailsOnly Failure.IsConfiguration (do
      if ← Result.ofFault verdict then
        Result.failDisplaying v fun shown => .invalidConfig parameter (why shown) : Result Unit) := by
  obtain ⟨s, hs⟩ := h.exists_display
  rw [hverdict]
  cases b with
  | true => exact failsOnly_invalidConfig hs parameter why
  | false => exact .ok ()

namespace PollConfig

theorem failsOnly_checkBelow {v : Value} (h : v.IsSetting) (parameter : String) (bound : Nat) :
    FailsOnly Failure.IsConfiguration (checkBelow parameter bound v) := by
  obtain ⟨o, ho⟩ := h.exists_orderWith bound
  have hverdict : v.isBelow bound = .ok (o == some .lt) := by
    rw [Value.isBelow, ho]
    rfl
  exact failsOnly_refusal hverdict h parameter (.below bound)

theorem failsOnly_check {attempts interval : Value} (hattempts : attempts.IsSetting)
    (hinterval : interval.IsSetting) :
    FailsOnly Failure.IsConfiguration (check attempts interval) :=
  (failsOnly_checkBelow hattempts "max_attempts" 1).bind fun _ _ =>
    (failsOnly_checkBelow hinterval "interval_seconds" 0).bind fun _ _ => .ok _

/-- A number of attempts that the environment gives can be shown. -/
theorem isSetting_int (env : Environment) (name : String) {default : Int}
    (h : default.natAbs < Integer.textBound) : (Value.int (env.int name default).value).IsSetting := by
  refine .int ?_
  unfold Environment.int Environment.number
  split
  · exact h
  · split
    · next hread => exact Integer.natAbs_lt_of_read? hread
    · exact h

theorem failsOnly_build (env : Environment) {attempts interval : Option Value}
    (hattempts : ∀ v ∈ attempts, v.IsSetting) (hinterval : ∀ v ∈ interval, v.IsSetting) :
    FailsOnly Failure.IsConfiguration (build env attempts interval).2 := by
  have hlimit : (Value.int (env.int "ONEMONEY_POLL_MAX_ATTEMPTS" 30).value).IsSetting :=
    isSetting_int env _ (Integer.lt_textBound (by decide))
  unfold build
  refine failsOnly_check ?_ ?_
  · cases attempts with
    | some v => exact hattempts v rfl
    | none => exact hlimit
  · cases interval with
    | some v => exact hinterval v rfl
    | none => exact .float _

end PollConfig

theorem Network.failsOnly_resolve (s : Script) :
    FailsOnly Failure.IsConfiguration (resolve s.toValue) := by
  cases s with
  | whole s =>
    show FailsOnly _ ((ofName? s).elim (unknown (.text s)) .ok)
    generalize ofName? s = found
    cases found with
    | some n => exact .ok n
    | none => exact failsOnly_invalidConfig (Value.display_text s) _ _
  | torn t => exact failsOnly_invalidConfig rfl _ _

/-! ## Addresses -/

namespace Url

theorem authority_subset (s : List Char) : (splitAuthority s).1 ⊆ s := by
  unfold splitAuthority
  split
  · exact fun c hc => List.mem_cons_of_mem _ (List.mem_cons_of_mem _ (List.takeWhile_subset _ hc))
  · exact List.nil_subset s

/-- Without brackets and without forms of delimiters every text can be cut into its parts. -/
theorem exists_split?_of_plain {s : String}
    (h : ∀ c ∈ s.toList, c ≠ '[' ∧ c ≠ ']' ∧ c.toNat ∉ delimiterForms) :
    ∃ parts, split? s = some parts := by
  have hplain : ∀ c ∈ (splitAuthority (splitScheme (tidy s.toList)).2).1,
      c ≠ '[' ∧ c ≠ ']' ∧ c.toNat ∉ delimiterForms := fun c hc =>
    h c (tidy_subset _ (splitScheme_subset _ (authority_subset _ hc)))
  unfold split? splitChars
  simp only
  generalize splitAuthority (splitScheme (tidy s.toList)).2 = cut at hplain
  have hopen : cut.1.contains '[' = false := by
    rw [Bool.eq_false_iff, ne_eq, List.contains_iff_mem]
    exact fun hc => (hplain _ hc).1 rfl
  have hclose : cut.1.contains ']' = false := by
    rw [Bool.eq_false_iff, ne_eq, List.contains_iff_mem]
    exact fun hc => (hplain _ hc).2.1 rfl
  have hforms : (cut.1.any fun c => delimiterForms.contains c.toNat) = false := by
    rw [List.any_eq_false]
    intro c hc
    rw [List.contains_iff_mem]
    exact (hplain c hc).2.2
  have hfits : authorityFits cut.1 = true := by
    unfold authorityFits bracketsFit
    rw [hopen, hclose, hforms]
    rfl
  rw [if_pos hfits]
  exact ⟨_, rfl⟩

end Url

namespace ClientConfig

/-! ## The whole configuration -/

/-- Arguments by name, of their declared types. -/
structure Declared (given : List (String × Value)) : Prop where
  known : ∀ g ∈ given, g.1 ∈ settingNames
  network : ∀ v, given.lookup "network" = some v → ∃ s : Script, v = s.toValue
  address : ∀ v, given.lookup "base_url_override" = some v → v = .null ∨ ∃ s : Script, v = s.toValue
  timeout : ∀ v, given.lookup "timeout_seconds" = some v → v.IsSetting

/-- The address that the arguments give, or else the environment. -/
def address (env : Environment) (given : List (String × Value)) : Value :=
  (given.lookup "base_url_override").getD (textSetting env "ONEMONEY_BASE_URL" .null)

/-- The arguments with no address in force. -/
def withoutAddress (given : List (String × Value)) : List (String × Value) :=
  ("base_url_override", .null) :: given

/-- The address is looked at last. -/
theorem check_eq_bind (network url timeout poll userAgent : Value) :
    check network url timeout poll userAgent = do
      let c ← check network .null timeout poll userAgent
      let override ← checkUrl url
      return { c with baseUrlOverride := override } := by
  unfold check
  cases Network.resolve network with
  | error f => rfl
  | ok n =>
    cases checkTimeout timeout with
    | error f => rfl
    | ok u =>
      cases checkUrl url with
      | error f => rfl
      | ok override => rfl

theorem build_eq_bind (env : Environment) (given : List (String × Value)) :
    (build env given).2 = do
      let c ← (build env (withoutAddress given)).2
      let override ← checkUrl (address env given)
      return { c with baseUrlOverride := override } := by
  have hnetwork : (withoutAddress given).lookup "network" = given.lookup "network" := rfl
  have htimeout : (withoutAddress given).lookup "timeout_seconds" = given.lookup "timeout_seconds" :=
    rfl
  have hpoll : (withoutAddress given).lookup "poll" = given.lookup "poll" := rfl
  have huser : (withoutAddress given).lookup "user_agent" = given.lookup "user_agent" := rfl
  have hnull : (withoutAddress given).lookup "base_url_override" = some .null := rfl
  have hnames : (withoutAddress given).any (fun g => !settingNames.contains g.1) =
      given.any fun g => !settingNames.contains g.1 := rfl
  unfold build
  rw [hnetwork, htimeout, hpoll, huser, hnull, hnames]
  by_cases hknown : (given.any fun g => !settingNames.contains g.1) = true
  · rw [if_pos hknown, if_pos hknown]
    rfl
  · rw [if_neg hknown, if_neg hknown]
    cases given.lookup "poll" with
    | some poll => exact check_eq_bind _ _ _ _ _
    | none =>
      generalize PollConfig.build env none none = settings
      obtain ⟨warnings, built⟩ := settings
      cases built with
      | error f => rfl
      | ok p => exact check_eq_bind _ _ _ _ _

theorem failsOnly_checkTimeout {v : Value} (h : v.IsSetting) :
    FailsOnly Failure.IsConfiguration (checkTimeout v) := by
  obtain ⟨o, ho⟩ := h.exists_orderWith 0
  have hverdict : v.isAtMost 0 = .ok (o == some .lt || o == some .eq) := by
    rw [Value.isAtMost, ho]
    rfl
  exact failsOnly_refusal hverdict h "timeout_seconds" .notPositive

theorem failsOnly_check {timeout : Value} (htimeout : timeout.IsSetting) (s : Script)
    (poll userAgent : Value) :
    FailsOnly Failure.IsConfiguration (check s.toValue .null timeout poll userAgent) :=
  (Network.failsOnly_resolve s).bind fun _ _ =>
    (failsOnly_checkTimeout htimeout).bind fun _ _ => .ok _

theorem exists_text_of_textSetting (env : Environment) (name default : String) :
    ∃ s : Script, textSetting env name (.text default) = s.toValue := by
  unfold textSetting
  cases env.text? name with
  | none => exact ⟨.whole default, rfl⟩
  | some s => exact ⟨.whole s, rfl⟩

/-- Without an address in force there is no other failure than an error about the configuration. -/
theorem failsOnly_withoutAddress (env : Environment) {given : List (String × Value)}
    (h : Declared given) :
    FailsOnly Failure.IsConfiguration (build env (withoutAddress given)).2 := by
  have hknown : ¬((withoutAddress given).any fun g => !settingNames.contains g.1) = true := by
    rw [Bool.not_eq_true, List.any_eq_false]
    intro g hg
    have hname : g.1 ∈ settingNames := by
      rcases List.mem_cons.mp hg with rfl | hmem
      · decide
      · exact h.known g hmem
    rw [List.contains_iff_mem.mpr hname]
    decide
  obtain ⟨s, hs⟩ : ∃ s : Script, (given.lookup "network").getD
      (textSetting env "ONEMONEY_NETWORK" (.text "mainnet")) = s.toValue := by
    cases hv : given.lookup "network" with
    | some v => exact h.network v hv
    | none => exact exists_text_of_textSetting env _ _
  have hnetwork : (withoutAddress given).lookup "network" = given.lookup "network" := rfl
  have htimeout : (withoutAddress given).lookup "timeout_seconds" = given.lookup "timeout_seconds" :=
    rfl
  have hnull : (withoutAddress given).lookup "base_url_override" = some .null := rfl
  unfold build
  rw [if_neg hknown, hnetwork, hs, hnull, htimeout]
  refine FailsOnly.bind ?_ fun poll _ => failsOnly_check ?_ s poll _
  · cases (withoutAddress given).lookup "poll" with
    | some poll => exact .ok poll
    | none =>
      exact (PollConfig.failsOnly_build env (by simp) (by simp)).map _
  · cases hv : given.lookup "timeout_seconds" with
    | some v => exact h.timeout v hv
    | none => exact .float _

/-- How a configuration ends, by how it would end with no address in force. -/
inductive Verdict (others : Result ClientConfig) : Value → Result ClientConfig → Prop where
  | refused {v : Value} {f : Failure} (hothers : others = .error f) (hf : f.IsConfiguration) :
      Verdict others v (.error f)
  | absent {c : ClientConfig} (hothers : others = .ok c) :
      Verdict others .null (.ok { c with baseUrlOverride := none })
  | web {s : Script} {parts : Url.Parts} {c : ClientConfig} (hothers : others = .ok c)
      (hparts : Url.split? s.mended = some parts) (hweb : parts.isWeb = true) :
      Verdict others s.toValue (.ok { c with baseUrlOverride := some s.mended })
  | strange {s : Script} {parts : Url.Parts} {c : ClientConfig} (hothers : others = .ok c)
      (hparts : Url.split? s.mended = some parts) (hweb : parts.isWeb = false) :
      Verdict others s.toValue (.error (.client (.invalidConfig "base_url" (.notUrl s.mended))))
  | malformed {s : Script} {c : ClientConfig} (hothers : others = .ok c)
      (hparts : Url.split? s.mended = none) : Verdict others s.toValue (.error (.fault .badValue))

namespace Verdict

variable {others result : Result ClientConfig} {s : Script}

theorem of_ok {c : ClientConfig} (h : Verdict others s.toValue (.ok c)) :
    c.baseUrlOverride = some s.mended ∧
      ∃ parts, Url.split? s.mended = some parts ∧ parts.isWeb = true := by
  generalize hv : s.toValue = v at h
  generalize hr : (.ok c : Result ClientConfig) = result at h
  cases h with
  | absent => exact absurd hv s.toValue_ne_null
  | web _ hparts hweb =>
    cases Script.toValue_injective hv
    cases hr
    exact ⟨rfl, _, hparts, hweb⟩
  | _ => cases hr

theorem of_strange (h : Verdict others s.toValue result) {parts : Url.Parts}
    (hparts : Url.split? s.mended = some parts) (hweb : parts.isWeb = false) :
    ∃ f, result = .error f ∧ f.IsConfiguration := by
  generalize hv : s.toValue = v at h
  cases h with
  | refused _ hconfig => exact ⟨_, rfl, hconfig⟩
  | absent => exact absurd hv s.toValue_ne_null
  | strange => exact ⟨_, rfl, _, rfl⟩
  | web _ hfound hfoundWeb =>
    cases Script.toValue_injective hv
    obtain rfl := Option.some.inj (hparts.symm.trans hfound)
    rw [hweb] at hfoundWeb
    cases hfoundWeb
  | malformed _ hnone =>
    cases Script.toValue_injective hv
    rw [hparts] at hnone
    cases hnone

theorem of_malformed (h : Verdict others s.toValue result) {c : ClientConfig} (hothers : others = .ok c)
    (hnone : Url.split? s.mended = none) : result = .error (.fault .badValue) := by
  generalize hv : s.toValue = v at h
  cases h with
  | malformed => rfl
  | refused hrefused =>
    rw [hothers] at hrefused
    cases hrefused
  | absent => exact absurd hv s.toValue_ne_null
  | web _ hparts =>
    cases Script.toValue_injective hv
    rw [hnone] at hparts
    cases hparts
  | strange _ hparts =>
    cases Script.toValue_injective hv
    rw [hnone] at hparts
    cases hparts

end Verdict

theorem exists_address (env : Environment) {given : List (String × Value)} (h : Declared given) :
    address env given = .null ∨ ∃ s : Script, address env given = s.toValue := by
  unfold address
  cases hv : given.lookup "base_url_override" with
  | some v => exact h.address v hv
  | none =>
    show textSetting env _ .null = .null ∨ ∃ s : Script, textSetting env _ .null = s.toValue
    unfold textSetting
    cases env.text? "ONEMONEY_BASE_URL" with
    | none => exact .inl rfl
    | some s => exact .inr ⟨.whole s, rfl⟩

theorem verdict_build (env : Environment) {given : List (String × Value)} (h : Declared given) :
    Verdict (build env (withoutAddress given)).2 (address env given) (build env given).2 := by
  rw [build_eq_bind env given]
  cases hothers : (build env (withoutAddress given)).2 with
  | error f => exact .refused rfl (failsOnly_withoutAddress env h f hothers)
  | ok c =>
    rcases exists_address env h with hnull | ⟨s, hs⟩
    · rw [hnull]
      exact .absent rfl
    · rw [hs]
      show Verdict _ _ (checkUrl s.toValue >>= fun override => pure { c with baseUrlOverride := override })
      rw [checkUrl_script]
      cases hparts : Url.split? s.mended with
      | none => exact .malformed rfl hparts
      | some parts =>
        cases hweb : parts.isWeb with
        | true =>
          simp only [hweb, if_true]
          exact .web rfl hparts hweb
        | false =>
          simp only [hweb, Bool.false_eq_true, if_false]
          exact .strange rfl hparts hweb

/-- The only failure that is no error about the configuration is that of an address of which the authority
is malformed, which everything else that was given lets through; a text without brackets and without forms
of delimiters is no such address. No address is accepted that is not one of the web with an authority, and
one that can be cut into other parts is rejected by an error about the configuration. -/
theorem build_rejects (env : Environment) (given : List (String × Value)) (h : Declared given)
    (attempts interval : Option Value) (hattempts : ∀ v ∈ attempts, v.IsSetting)
    (hinterval : ∀ v ∈ interval, v.IsSetting) :
    FailsOnly (fun f => f.IsConfiguration ∨ f = .fault .badValue ∧
        (∃ s : Script, address env given = s.toValue ∧ Url.split? s.mended = none) ∧
        ∃ c, (build env (withoutAddress given)).2 = .ok c) (build env given).2 ∧
      (∀ s : Script, address env given = s.toValue →
        (∀ c, (build env given).2 = .ok c → c.baseUrlOverride = some s.mended ∧
          ∃ parts, Url.split? s.mended = some parts ∧ parts.isWeb = true) ∧
        (∀ parts, Url.split? s.mended = some parts → parts.isWeb = false →
          ∃ f, (build env given).2 = .error f ∧ f.IsConfiguration) ∧
        (Url.split? s.mended = none → ∀ c, (build env (withoutAddress given)).2 = .ok c →
          (build env given).2 = .error (.fault .badValue)) ∧
        ((∀ c ∈ s.mended.toList, c ≠ '[' ∧ c ≠ ']' ∧ c.toNat ∉ Url.delimiterForms) →
          ∃ parts, Url.split? s.mended = some parts)) ∧
      FailsOnly Failure.IsConfiguration (PollConfig.build env attempts interval).2 := by
  have hverdict := verdict_build env h
  refine ⟨?_, ?_, PollConfig.failsOnly_build env hattempts hinterval⟩
  · intro f hf
    rw [hf] at hverdict
    generalize address env given = url at hverdict ⊢
    cases hverdict with
    | refused _ hconfig => exact .inl hconfig
    | strange => exact .inl ⟨_, rfl⟩
    | malformed hothers hparts => exact .inr ⟨rfl, ⟨_, rfl, hparts⟩, _, hothers⟩
  · intro s hs
    rw [hs] at hverdict
    generalize (build env given).2 = result at hverdict ⊢
    refine ⟨?_, ?_, ?_, Url.exists_split?_of_plain⟩
    · rintro c rfl
      obtain ⟨hsome, parts, hparts, hweb⟩ := hverdict.of_ok
      exact ⟨hsome, parts, hparts, hweb⟩
    · exact fun parts hparts hweb => hverdict.of_strange hparts hweb
    · exact fun hnone c hc => hverdict.of_malformed hc hnone

/-- A network between blanks, a timeout of its own and an address of another kind. -/
def foreign : List (String × Value) :=
  [("network", .text " Local "), ("base_url_override", .text "ftp://node"), ("timeout_seconds", .float 2.5)]

theorem declared_foreign : Declared foreign where
  known := by decide
  network _ hv := ⟨.whole _, (Option.some.inj hv).symm⟩
  address _ hv := .inr ⟨.whole _, (Option.some.inj hv).symm⟩
  timeout _ hv := by
    obtain rfl := Option.some.inj hv
    exact .float _

theorem build_rejects_foreign :
    (∃ f, (build [] foreign).2 = .error f ∧ f.IsConfiguration) ∧
      FailsOnly Failure.IsConfiguration (PollConfig.build [] (some (.int 0)) none).2 := by
  obtain ⟨-, haddress, hpoll⟩ := build_rejects [] foreign declared_foreign (some (.int 0)) none
    (by
      intro v hv
      obtain rfl := Option.some.inj hv
      exact .int (Integer.lt_textBound (by decide)))
    (by
      intro v hv
      cases hv)
  obtain ⟨-, hstrange, -⟩ := haddress (.whole "ftp://node") rfl
  exact ⟨hstrange ⟨"ftp", "node", "", none, none⟩ (by decide +kernel) (by decide), hpoll⟩

/-- An opened bracket that is not closed makes the address a bad value and no error about the
configuration, and an address is accepted whose authority has no host. -/
theorem build_malformed_address :
    build [] [("network", .text "local"), ("base_url_override", .text "http://[::1")] =
        ([], .error (.fault .badValue)) ∧
      ∃ c, build [] [("network", .text "local"), ("base_url_override", .text "http://:80")] = ([], .ok c) ∧
        Url.split? "http://:80" = some ⟨"http", ":80", "", none, none⟩ :=
  ⟨rfl, _, rfl, by decide +kernel⟩

end ClientConfig

end LedgerClient
