import LedgerClient.Config.Client
import LedgerClient.Proofs.Result

/-!
# Loading files in turn

A loaded file leaves its variables in the environment, where the next file finds them set. So each
configuration is that of the environment and of all files so far, the earlier ones winning; it is that of
the environment and of its own file when the files before say nothing else.
-/

namespace LedgerClient

/-! ## What a load adds -/

namespace EnvFile

/-- The variables of a file that have a value. -/
def assigned (vs : Variables) : Environment := vs.filterMap fun v => v.2.map (v.1, ·)

theorem get?_assigned_cons (name : String) (given : Option String) (vs : Variables) (key : String) :
    (assigned ((name, given) :: vs)).get? key =
      (if key = name then given else none).or ((assigned vs).get? key) := by
  cases given with
  | none =>
    rw [ite_self]
    rfl
  | some s =>
    show List.lookup key ((name, s) :: assigned vs) = _
    rw [List.lookup_cons]
    by_cases hkey : key = name
    · rw [if_pos hkey, beq_iff_eq.mpr hkey]
      rfl
    · rw [if_neg hkey, beq_false_of_ne hkey]
      rfl

end EnvFile

namespace Environment

open EnvFile (assigned)

theorem get?_append (env other : Environment) (key : String) :
    Environment.get? (env ++ other) key = (env.get? key).or (other.get? key) := List.lookup_append

theorem get?_addUnset {env : Environment} {name : String} (h : env.get? name = none) (given key : String) :
    (env.addUnset name given).get? key = (env.get? key).or (if key = name then some given else none) := by
  have hone : Environment.get? [(name, given)] key = if key = name then some given else none := by
    rw [show [(name, given)] = assigned [(name, some given)] from rfl, EnvFile.get?_assigned_cons]
    exact Option.or_none
  rw [addUnset, h]
  show (env ++ [(name, given)]).get? key = _
  rw [get?_append, hone]

/-- What is set stays, and what is not set is taken from the file. -/
theorem get?_loadOne {env loaded : Environment} {name : String} {given : Option String}
    (h : env.loadOne name given = (loaded, .ok ())) (key : String) :
    loaded.get? key = (env.get? key).or (if key = name then given else none) := by
  cases given with
  | none =>
    obtain rfl := (Prod.mk.inj h).1
    rw [ite_self, Option.or_none]
  | some s =>
    unfold loadOne at h
    simp only at h
    split at h
    · next hset =>
      obtain rfl := (Prod.mk.inj h).1
      by_cases hkey : key = name
      · obtain ⟨old, hold⟩ := Option.isSome_iff_exists.mp hset
        rw [hkey, hold]
        rfl
      · rw [if_neg hkey, Option.or_none]
    · next hunset =>
      split at h
      · obtain rfl := (Prod.mk.inj h).1
        exact get?_addUnset (Option.not_isSome_iff_eq_none.mp hunset) s key
      · cases (Prod.mk.inj h).2

theorem get?_loadAll {vs : EnvFile.Variables} {env loaded : Environment}
    (h : env.loadAll vs = (loaded, .ok ())) (key : String) :
    loaded.get? key = (env.get? key).or ((assigned vs).get? key) := by
  induction vs generalizing env with
  | nil =>
    obtain rfl := (Prod.mk.inj h).1
    exact Option.or_none.symm
  | cons v rest ih =>
    obtain ⟨name, given⟩ := v
    rw [loadAll] at h
    cases hone : env.loadOne name given with
    | mk between outcome =>
      rw [hone] at h
      cases outcome with
      | error fault => cases (Prod.mk.inj h).2
      | ok u =>
        rw [ih h, get?_loadOne hone, EnvFile.get?_assigned_cons, Option.or_assoc]

/-- A load that goes through, with what the file holds at that time. -/
structure Loads (env : Environment) (file : String) (vs : EnvFile.Variables) (loaded : Environment) :
    Prop where
  switched : env.refusesFiles = false
  contents : EnvFile.variablesOf env file = vs
  result : env.load file = (loaded, .ok ())

theorem Loads.get? {env loaded : Environment} {file : String} {vs : EnvFile.Variables}
    (h : env.Loads file vs loaded) (key : String) :
    loaded.get? key = (env.get? key).or ((assigned vs).get? key) := by
  have hall : env.loadAll vs = (loaded, .ok ()) := by
    have hload := h.result
    rw [load, h.switched, h.contents] at hload
    exact hload
  exact get?_loadAll hall key

end Environment

namespace ClientConfig

open EnvFile (assigned)

/-! ## What a configuration is read from -/

def variableNames : List String :=
  ["ONEMONEY_NETWORK", "ONEMONEY_BASE_URL", "ONEMONEY_TIMEOUT_SECONDS", "ONEMONEY_POLL_MAX_ATTEMPTS",
    "ONEMONEY_POLL_INTERVAL_SECONDS"]

section

variable {env other : Environment} {name : String}

theorem textSetting_congr (h : env.get? name = other.get? name) (default : Value) :
    textSetting env name default = textSetting other name default := by
  rw [textSetting, textSetting, Environment.text?, Environment.text?, h]

theorem number_congr {α : Type} (h : env.get? name = other.get? name) (kind : String)
    (read : String → Option α) (shown : α → String) (default : α) :
    env.number kind name read shown default = other.number kind name read shown default := by
  rw [Environment.number, Environment.number, h]

/-- Environments that agree on the five variables give the same configuration. -/
theorem build_congr (h : ∀ name ∈ variableNames, env.get? name = other.get? name)
    (given : List (String × Value)) : build env given = build other given := by
  have hpoll : PollConfig.build env none none = PollConfig.build other none none := by
    unfold PollConfig.build Environment.int Environment.float
    rw [number_congr (h "ONEMONEY_POLL_MAX_ATTEMPTS" (by decide)),
      number_congr (h "ONEMONEY_POLL_INTERVAL_SECONDS" (by decide))]
  unfold build Environment.float
  rw [textSetting_congr (h "ONEMONEY_NETWORK" (by decide)),
    textSetting_congr (h "ONEMONEY_BASE_URL" (by decide)),
    number_congr (h "ONEMONEY_TIMEOUT_SECONDS" (by decide)), hpoll]

end

/-! ## Reloads in turn -/

/-- What reloading one file after the other gives, each in the environment that the ones before left. -/
def reloads (env : Environment) : List String → List (List String × Result ClientConfig)
  | [] => []
  | file :: rest => (reload env file).2 :: reloads (reload env file).1 rest

/-- Each file in turn goes through, with what it holds at its turn. -/
inductive Loading : Environment → List String → List EnvFile.Variables → Prop where
  | nil (env : Environment) : Loading env [] []
  | cons {env loaded : Environment} {file : String} {vs : EnvFile.Variables} {files : List String}
      {contents : List EnvFile.Variables} (hload : env.Loads file vs loaded)
      (hrest : Loading loaded files contents) : Loading env (file :: files) (vs :: contents)

theorem reload_of_loads {env loaded : Environment} {file : String} {vs : EnvFile.Variables}
    (h : env.Loads file vs loaded) : reload env file = (loaded, build loaded []) := by
  rw [reload, h.result]

/-- The variables of an environment and of files, the first that sets a name winning. -/
def overlay (env : Environment) (contents : List EnvFile.Variables) : Environment :=
  env ++ contents.flatMap assigned

theorem get?_overlay_cons (env : Environment) (vs : EnvFile.Variables)
    (contents : List EnvFile.Variables) (key : String) :
    (overlay env (vs :: contents)).get? key =
      ((env.get? key).or ((assigned vs).get? key)).or
        (Environment.get? (contents.flatMap assigned) key) := by
  rw [overlay, List.flatMap_cons, Environment.get?_append, Environment.get?_append, Option.or_assoc]

theorem getElem?_reloads {env : Environment} {files : List String} {contents : List EnvFile.Variables}
    (h : Loading env files contents) (i : Nat) :
    (reloads env files)[i]? =
      contents[i]?.map fun _ => build (overlay env (contents.take (i + 1))) [] := by
  induction h generalizing i with
  | nil env => rfl
  | @cons env loaded file vs files contents hload hrest ih =>
    rw [reloads, reload_of_loads hload]
    cases i with
    | zero =>
      have hsame : build loaded [] = build (overlay env [vs]) [] := build_congr (fun name _ => by
        rw [hload.get?, get?_overlay_cons]
        exact Option.or_none.symm) []
      exact congrArg some hsame
    | succ i =>
      have hsame : build (overlay loaded (contents.take (i + 1))) [] =
          build (overlay env ((vs :: contents).take (i + 1 + 1))) [] := build_congr (fun name _ => by
        rw [List.take_succ_cons, get?_overlay_cons, overlay, Environment.get?_append, hload.get?]) []
      rw [List.getElem?_cons_succ, List.getElem?_cons_succ, ih, hsame]

theorem exists_of_get?_flatMap {contents : List EnvFile.Variables} {key s : String}
    (h : Environment.get? (contents.flatMap assigned) key = some s) :
    ∃ vs ∈ contents, (assigned vs).get? key = some s := by
  induction contents with
  | nil => cases h
  | cons vs rest ih =>
    rw [List.flatMap_cons, Environment.get?_append, Option.or_eq_some_iff] at h
    rcases h with hfirst | ⟨-, hrest⟩
    · exact ⟨vs, List.mem_cons_self, hfirst⟩
    · obtain ⟨found, hmem, hfound⟩ := ih hrest
      exact ⟨found, List.mem_cons_of_mem vs hmem, hfound⟩

/-- Files in front that say nothing else about an unset variable can be left out. -/
theorem get?_overlay_agreeing {env : Environment} {before : List EnvFile.Variables}
    {vs : EnvFile.Variables} {key : String}
    (h : env.get? key = none → ∀ w ∈ before, ∀ s, (assigned w).get? key = some s →
      (assigned vs).get? key = some s) :
    (overlay env (before ++ [vs])).get? key = (overlay env [vs]).get? key := by
  have hone : [vs].flatMap assigned = assigned vs := List.flatMap_singleton _ _
  rw [overlay, overlay, List.flatMap_append, hone, Environment.get?_append, Environment.get?_append,
    Environment.get?_append]
  cases henv : env.get? key with
  | some s => rfl
  | none =>
    cases hbefore : Environment.get? (before.flatMap assigned) key with
    | none => rfl
    | some s =>
      obtain ⟨w, hw, hs⟩ := exists_of_get?_flatMap hbefore
      rw [h henv w hw s hs]
      rfl

/-- Each reload gives the configuration of the environment and of all files up to its own, where the
environment wins over the files and a file over the later ones. It is that of the environment and its own
file alone when every file before that sets one of the variables, unset in the environment, sets it to what
its own file says. -/
theorem reloads_overlay (env : Environment) (files : List String)
    (contents : List EnvFile.Variables) (h : Loading env files contents) :
    (reloads env files).length = files.length ∧
      ∀ i vs, contents[i]? = some vs →
        (reloads env files)[i]? = some (build (overlay env (contents.take (i + 1))) []) ∧
        ((∀ name ∈ variableNames, env.get? name = none → ∀ w ∈ contents.take i, ∀ s,
            (assigned w).get? name = some s → (assigned vs).get? name = some s) →
          (reloads env files)[i]? = some (build (overlay env [vs]) [])) := by
  refine ⟨?_, ?_⟩
  · clear h
    induction files generalizing env with
    | nil => rfl
    | cons file rest ih => exact congrArg (· + 1) (ih _)
  · intro i vs hi
    have hrun := getElem?_reloads h i
    rw [hi, Option.map_some] at hrun
    refine ⟨hrun, ?_⟩
    intro hagree
    rw [hrun, List.take_add_one, hi]
    exact congrArg some (build_congr (fun name hname => get?_overlay_agreeing (hagree name hname)) [])

/-- Two files that agree on the network. -/
def agreeing : List String :=
  ["ONEMONEY_NETWORK=local\n", "ONEMONEY_NETWORK=local\nONEMONEY_TIMEOUT_SECONDS=2.5\n"]

def agreed : EnvFile.Variables :=
  [("ONEMONEY_NETWORK", some "local"), ("ONEMONEY_TIMEOUT_SECONDS", some "2.5")]

theorem loading_agreeing :
    Loading [("HOME", "/root")] agreeing [[("ONEMONEY_NETWORK", some "local")], agreed] :=
  .cons ⟨rfl, by decide +kernel, rfl⟩ (.cons ⟨rfl, by decide +kernel, rfl⟩ (.nil _))

theorem reloads_overlay_agreeing :
    (reloads [("HOME", "/root")] agreeing)[1]? = some (build (overlay [("HOME", "/root")] [agreed]) []) := by
  refine ((reloads_overlay _ _ _ loading_agreeing).2 1 agreed rfl).2 ?_
  intro name hname _ w hw s hs
  obtain rfl := List.mem_singleton.mp hw
  by_cases hnetwork : name = "ONEMONEY_NETWORK"
  · subst hnetwork
    exact hs
  · rw [EnvFile.get?_assigned_cons, if_neg hnetwork] at hs
    cases hs

/-- The network of the first file stays in the environment, so that the second file does not name it. -/
theorem reloads_stale :
    Loading [] ["ONEMONEY_NETWORK=testnet\n", "ONEMONEY_NETWORK=local\n"]
        [[("ONEMONEY_NETWORK", some "testnet")], [("ONEMONEY_NETWORK", some "local")]] ∧
      ∃ c d, (reloads [] ["ONEMONEY_NETWORK=testnet\n", "ONEMONEY_NETWORK=local\n"])[1]? =
          some ([], .ok c) ∧ c.network = .testnet ∧
        build (overlay [] [[("ONEMONEY_NETWORK", some "local")]]) [] = ([], .ok d) ∧
          d.network = .loopback :=
  ⟨.cons ⟨rfl, by decide +kernel, rfl⟩ (.cons ⟨rfl, by decide +kernel, rfl⟩ (.nil _)),
    _, _, rfl, rfl, rfl, rfl⟩

end ClientConfig

end LedgerClient
