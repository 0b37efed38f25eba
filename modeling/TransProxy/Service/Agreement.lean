import TransProxy.Firewall.Config
import TransProxy.Service.Args

/-!
# Whether the firewall is set up for the service that runs

The setup command is given some of the options of the service. It parses to a
configuration that has these options and defaults for the others, and the rules agree
with the service where the others do not matter.
-/
namespace TransProxy.Service
open Library CommandLine Config Firewall

/-- The values do not begin with a dash. -/
def PlainValues (args : List String) : Prop := ∀ tokens ∈ tokenize spec args, ∀ t ∈ tokens,
  ∀ value ∈ t.value, value.toList.head? ≠ some '-'

instance (args : List String) : Decidable (PlainValues args) :=
  inferInstanceAs (Decidable (∀ tokens ∈ tokenize spec args, ∀ t ∈ tokens,
    ∀ value ∈ t.value, value.toList.head? ≠ some '-'))

/-- The setup arguments parse, and give the rules that the configuration asks for. -/
def Agrees (env : Env) (platform : Platform) (setup : List String) (c : Config) : Prop :=
  ∃ c', Config.parse env platform setup = some c' ∧
    FirewallConfig.fromConfig env c' = FirewallConfig.fromConfig env c

def optionTokens (options : List (String × Opt)) (tokens : List (Token Opt)) : List (Token Opt) :=
  options.filterMap (fun e => (valueOf tokens e.2).map (.separate e.1 e.2))

def switchTokens (switches : List (String × Opt)) (tokens : List (Token Opt)) : List (Token Opt) :=
  (switches.filter (fun e => present tokens e.2)).map (fun e => .switch e.1 e.2)

def setupTokens (options switches : List (String × Opt)) (tokens : List (Token Opt)) :
    List (Token Opt) :=
  .switch "--setup-firewall" .setupFirewall ::
    (optionTokens options tokens ++ switchTokens switches tokens)

/-- A name that is the only one of its option, which is not one of the lifecycle. -/
structure Sole (arity : Arity) (e : String × Opt) : Prop where
  find : spec.find e.1 = some (e.2, arity)
  only : ∀ name arity', spec.find name = some (e.2, arity') → name = e.1
  keep : isServiceOption e.2 = false

section Filtered
variable {tokens : List (Token Opt)} {id : Opt}

theorem valueOf_filter (h : isServiceOption id = false) :
    valueOf (tokens.filter (fun t => !isServiceOption t.id)) id = valueOf tokens id := by
  rw [valueOf_filter_id (fun id => !isServiceOption id), h]
  rfl

theorem present_filter (h : isServiceOption id = false) :
    present (tokens.filter (fun t => !isServiceOption t.id)) id = present tokens id := by
  rw [present_filter_id (fun id => !isServiceOption id), h]
  rfl

end Filtered

section Setup
variable {tokens : List (Token Opt)} {options switches : List (String × Opt)}

theorem extractArg_filter {e : String × Opt} (he : Sole .value e)
    (hvalid : ∀ t ∈ tokens, t.Valid spec) :
    extractArg e.1 (filterServiceArgs (render tokens)) = valueOf tokens e.2 := by
  rw [filterServiceArgs, filterFrom_render hvalid, extractArg_render he.find he.only,
    valueOf_filter he.keep]
  exact fun t ht => hvalid t (List.mem_of_mem_filter ht)

theorem hasFlag_filter {e : String × Opt} (he : Sole .switch e)
    (hvalid : ∀ t ∈ tokens, t.Valid spec) :
    hasFlag (filterServiceArgs (render tokens)) e.1 = present tokens e.2 := by
  rw [filterServiceArgs, filterFrom_render hvalid, hasFlag_render he.find he.only,
    present_filter he.keep]
  exact fun t ht => hvalid t (List.mem_of_mem_filter ht)

theorem render_optionTokens (hvalid : ∀ t ∈ tokens, t.Valid spec)
    (hoptions : ∀ e ∈ options, Sole .value e) :
    (options.map Prod.fst).flatMap (forwardOption (filterServiceArgs (render tokens))) =
      render (optionTokens options tokens) := by
  induction options with
  | nil => rfl
  | cons e options ih =>
    have hrest := ih (fun e he => hoptions e (List.mem_cons_of_mem _ he))
    have hextract := extractArg_filter (hoptions e List.mem_cons_self) hvalid
    rw [List.map_cons, List.flatMap_cons, hrest, forwardOption, hextract]
    cases hvalue : valueOf tokens e.2 with
    | none => simp [optionTokens, hvalue]
    | some value => simp [optionTokens, hvalue, Token.render]

theorem render_switchTokens (hvalid : ∀ t ∈ tokens, t.Valid spec)
    (hswitches : ∀ e ∈ switches, Sole .switch e) :
    (switches.map Prod.fst).flatMap (forwardSwitch (filterServiceArgs (render tokens))) =
      render (switchTokens switches tokens) := by
  induction switches with
  | nil => rfl
  | cons e switches ih =>
    have hrest := ih (fun e he => hswitches e (List.mem_cons_of_mem _ he))
    have hflag := hasFlag_filter (hswitches e List.mem_cons_self) hvalid
    rw [List.map_cons, List.flatMap_cons, hrest, forwardSwitch, hflag]
    cases hpresent : present tokens e.2 with
    | false => simp [switchTokens, hpresent]
    | true => simp [switchTokens, hpresent, Token.render]

/-- What the setup command is given, as tokens. -/
theorem setupArgs_render (hvalid : ∀ t ∈ tokens, t.Valid spec)
    (hoptions : ∀ e ∈ options, Sole .value e) (hswitches : ∀ e ∈ switches, Sole .switch e) :
    setupArgs (options.map Prod.fst) (switches.map Prod.fst) (filterServiceArgs (render tokens)) =
      render (setupTokens options switches tokens) := by
  rw [setupArgs, render_optionTokens hvalid hoptions, render_switchTokens hvalid hswitches]
  simp [setupTokens, render, Token.render]

theorem valid_setupTokens (hoptions : ∀ e ∈ options, Sole .value e)
    (hswitches : ∀ e ∈ switches, Sole .switch e)
    (hplain : ∀ id value, valueOf tokens id = some value → looksLikeFlag value = false) :
    ∀ t ∈ setupTokens options switches tokens, t.Valid spec := by
  intro t ht
  rcases List.mem_cons.mp ht with rfl | ht
  · rfl
  rcases List.mem_append.mp ht with ht | ht
  · obtain ⟨e, he, hvalue⟩ := List.mem_filterMap.mp ht
    obtain ⟨value, hvalue', rfl⟩ := Option.map_eq_some_iff.mp hvalue
    exact ⟨(hoptions e he).find, hplain e.2 value hvalue'⟩
  · obtain ⟨e, he, rfl⟩ := List.mem_map.mp ht
    exact (hswitches e (List.mem_of_mem_filter he)).find

theorem map_id_optionTokens_sublist :
    ((optionTokens options tokens).map Token.id).Sublist (options.map Prod.snd) := by
  induction options with
  | nil => exact List.Sublist.refl _
  | cons e options ih =>
    cases hvalue : valueOf tokens e.2 with
    | none => simpa [optionTokens, hvalue] using ih.cons e.2
    | some value => simpa [optionTokens, hvalue, Token.id] using ih

theorem map_id_switchTokens_sublist :
    ((switchTokens switches tokens).map Token.id).Sublist (switches.map Prod.snd) := by
  rw [switchTokens, List.map_map]
  exact List.filter_sublist.map Prod.snd

theorem nodup_setupTokens
    (h : (.setupFirewall :: (options.map Prod.snd ++ switches.map Prod.snd)).Nodup) :
    ((setupTokens options switches tokens).map Token.id).Nodup := by
  apply List.Nodup.sublist _ h
  rw [setupTokens, List.map_cons, List.map_append]
  exact (map_id_optionTokens_sublist.append map_id_switchTokens_sublist).cons_cons _

theorem mem_map_snd_cons_iff {e : String × Opt} {id : Opt} (h : id ≠ e.2) :
    id ∈ (e :: options).map Prod.snd ↔ id ∈ options.map Prod.snd := by
  rw [List.map_cons, List.mem_cons, or_iff_right h]

theorem valueOf_optionTokens (id : Opt) : valueOf (optionTokens options tokens) id =
    if id ∈ options.map Prod.snd then valueOf tokens id else none := by
  induction options with
  | nil => rfl
  | cons e options ih =>
    by_cases hid : id = e.2
    · subst hid
      rw [optionTokens] at ih
      cases hvalue : valueOf tokens e.2 with
      | none => simp [optionTokens, hvalue, ih]
      | some value => simp [optionTokens, hvalue, valueOf_cons, Token.id, Token.value]
    · rw [if_congr (mem_map_snd_cons_iff hid) rfl rfl, ← ih]
      cases hvalue : valueOf tokens e.2 with
      | none => simp [optionTokens, hvalue]
      | some value => simp [optionTokens, hvalue, valueOf_cons, Token.id, Ne.symm hid]

theorem valueOf_switchTokens (id : Opt) : valueOf (switchTokens switches tokens) id = none := by
  induction switches with
  | nil => rfl
  | cons e switches ih =>
    rw [switchTokens] at ih ⊢
    cases hpresent : present tokens e.2 with
    | false => simpa [hpresent] using ih
    | true => simp [hpresent, valueOf_cons, Token.value, ih]

theorem valueOf_append_switchTokens (l : List (Token Opt)) (id : Opt) :
    valueOf (l ++ switchTokens switches tokens) id = valueOf l id := by
  induction l with
  | nil => exact valueOf_switchTokens id
  | cons t l ih => rw [List.cons_append, valueOf_cons, valueOf_cons, ih]

/-- The setup command has the values of the options that are forwarded. -/
theorem valueOf_setupTokens {id : Opt} (hid : id ≠ .setupFirewall) :
    valueOf (setupTokens options switches tokens) id =
      if id ∈ options.map Prod.snd then valueOf tokens id else none := by
  rw [setupTokens, valueOf_cons, valueOf_append_switchTokens, valueOf_optionTokens]
  exact if_neg (Ne.symm hid)

theorem present_optionTokens {id : Opt} (h : id ∉ options.map Prod.snd) :
    present (optionTokens options tokens) id = false := by
  rw [present, List.any_eq_false]
  intro t ht hid
  apply h
  rw [← of_decide_eq_true hid]
  exact map_id_optionTokens_sublist.subset (List.mem_map_of_mem ht)

theorem present_switchTokens (id : Opt) : present (switchTokens switches tokens) id =
    (decide (id ∈ switches.map Prod.snd) && present tokens id) := by
  induction switches with
  | nil => rfl
  | cons e switches ih =>
    rw [switchTokens] at ih ⊢
    by_cases hid : id = e.2
    · subst hid
      cases hpresent : present tokens e.2 with
      | false => simpa [hpresent] using ih
      | true => simp [hpresent, present_cons, Token.id]
    · rw [decide_eq_decide.mpr (mem_map_snd_cons_iff hid), ← ih]
      cases hpresent : present tokens e.2 with
      | false => simp [hpresent]
      | true => simp [hpresent, present_cons, Token.id, Ne.symm hid]

/-- The setup command has the switches that are forwarded. -/
theorem present_setupTokens {id : Opt} (h : id ∉ options.map Prod.snd) :
    present (setupTokens options switches tokens) id =
      (decide (.setupFirewall = id) ||
        (decide (id ∈ switches.map Prod.snd) && present tokens id)) := by
  rw [setupTokens, present_cons, present, List.any_append, ← present, ← present,
    present_optionTokens h, present_switchTokens, Bool.false_or]
  rfl

end Setup

/-- The options that are forwarded; the unit forwards the mark as well. -/
def setupOptions (withFwmark : Bool) : List (String × Opt) :=
  [("--interface", .interface), ("--listen-addr", .listenAddr),
    ("--upstream-proxy", .upstreamProxy), ("--dns-listen", .dnsListen), ("--ports", .ports)] ++
    if withFwmark then [("--fwmark", .fwmark)] else []

def setupSwitches : List (String × Opt) := [("--local-traffic", .localTraffic), ("--dns", .dns)]

theorem sole_of_table {arity : Arity} {e : String × Opt} (hfind : findOption e.1 = some (e.2, arity))
    (honly : ∀ entry ∈ optionTable, entry.2.1 = e.2 → entry.1 = e.1)
    (hkeep : isServiceOption e.2 = false) : Sole arity e :=
  ⟨hfind, fun _ _ h => honly _ (mem_optionTable_of_find h) rfl, hkeep⟩

theorem sole_setupOptions (withFwmark : Bool) : ∀ e ∈ setupOptions withFwmark, Sole .value e := by
  have hall : ∀ e ∈ setupOptions true, findOption e.1 = some (e.2, .value) ∧
      (∀ entry ∈ optionTable, entry.2.1 = e.2 → entry.1 = e.1) ∧
        isServiceOption e.2 = false := by
    decide
  intro e he
  have hmem : e ∈ setupOptions true := by
    cases withFwmark with
    | true => exact he
    | false =>
      rw [setupOptions, if_neg Bool.false_ne_true, List.append_nil] at he
      exact List.mem_append_left _ he
  obtain ⟨hfind, honly, hkeep⟩ := hall e hmem
  exact sole_of_table hfind honly hkeep

theorem sole_setupSwitches : ∀ e ∈ setupSwitches, Sole .switch e := by
  have hall : ∀ e ∈ setupSwitches, findOption e.1 = some (e.2, .switch) ∧
      (∀ entry ∈ optionTable, entry.2.1 = e.2 → entry.1 = e.1) ∧
        isServiceOption e.2 = false := by
    decide
  intro e he
  obtain ⟨hfind, honly, hkeep⟩ := hall e he
  exact sole_of_table hfind honly hkeep

def setupConfig (c : Config) (fwmark : UInt32) : Config :=
  { c with
    logLevel := "info"
    dnsUpstream := .https "https://cloudflare-dns.com/dns-query"
    dnsStripAaaa := false
    daemon := false
    pidFile := "/var/run/trans_proxy.pid"
    logFile := none
    proxyUser := "trans_proxy"
    fwmark
    gateway := false
    sni := false
    allowQuic := false
    install := false
    uninstall := false
    start := false
    stop := false
    setupFirewall := true
    teardownFirewall := false }

section Commands
variable {env : Env} {platform : Platform} {tokens : List (Token Opt)} {c : Config}
  {args : List String}

theorem valueOf_setup_of_mem (withFwmark : Bool) {id : Opt}
    (h : id ∈ (setupOptions false).map Prod.snd) :
    valueOf (setupTokens (setupOptions withFwmark) setupSwitches tokens) id =
      valueOf tokens id := by
  have hid : id ≠ .setupFirewall := by
    rintro rfl
    exact absurd h (by decide)
  rw [valueOf_setupTokens hid, if_pos]
  cases withFwmark with
  | false => exact h
  | true =>
    have hsubset : (setupOptions false).map Prod.snd ⊆ (setupOptions true).map Prod.snd := by
      decide
    exact hsubset h

theorem not_mem_setupOptions (withFwmark : Bool) {id : Opt}
    (h : id ∉ (setupOptions true).map Prod.snd) : id ∉ (setupOptions withFwmark).map Prod.snd := by
  cases withFwmark with
  | true => exact h
  | false =>
    have hsubset : (setupOptions false).map Prod.snd ⊆ (setupOptions true).map Prod.snd := by
      decide
    exact fun hmem => h (hsubset hmem)

theorem valueOf_setup_of_not_mem (withFwmark : Bool) {id : Opt}
    (h : id ∉ .setupFirewall :: (setupOptions true).map Prod.snd) :
    valueOf (setupTokens (setupOptions withFwmark) setupSwitches tokens) id = none := by
  obtain ⟨hid, hmem⟩ := not_or.mp (mt List.mem_cons.mpr h)
  rw [valueOf_setupTokens hid, if_neg (not_mem_setupOptions withFwmark hmem)]

theorem valueOf_setup_fwmark (withFwmark : Bool) :
    valueOf (setupTokens (setupOptions withFwmark) setupSwitches tokens) .fwmark =
      if withFwmark then valueOf tokens .fwmark else none := by
  rw [valueOf_setupTokens (by decide)]
  cases withFwmark <;> rfl

theorem present_setup_of_mem (withFwmark : Bool) {id : Opt}
    (h : id ∈ setupSwitches.map Prod.snd) :
    present (setupTokens (setupOptions withFwmark) setupSwitches tokens) id =
      present tokens id := by
  have hmem : id ∉ .setupFirewall :: (setupOptions true).map Prod.snd := by
    revert h id
    decide
  obtain ⟨hid, hmem⟩ := not_or.mp (mt List.mem_cons.mpr hmem)
  rw [present_setupTokens (not_mem_setupOptions withFwmark hmem), decide_eq_true h,
    decide_eq_false (Ne.symm hid), Bool.true_and, Bool.false_or]

theorem present_setup_of_not_mem (withFwmark : Bool) {id : Opt}
    (h : id ∉ .setupFirewall :: ((setupOptions true).map Prod.snd ++
      setupSwitches.map Prod.snd)) :
    present (setupTokens (setupOptions withFwmark) setupSwitches tokens) id = false := by
  obtain ⟨hid, hmem⟩ := not_or.mp (mt List.mem_cons.mpr h)
  obtain ⟨hoption, hswitch⟩ := not_or.mp (mt List.mem_append.mpr hmem)
  rw [present_setupTokens (not_mem_setupOptions withFwmark hoption), decide_eq_false hswitch,
    decide_eq_false (Ne.symm hid), Bool.false_and, Bool.false_or]

/-- The forwarded fields are those of the service, the others have their defaults. -/
theorem given_setupConfig (withFwmark : Bool)
    (h : Given env platform (valueOf tokens) (present tokens) c) :
    Given env platform (valueOf (setupTokens (setupOptions withFwmark) setupSwitches tokens))
      (present (setupTokens (setupOptions withFwmark) setupSwitches tokens))
      (setupConfig c (if withFwmark then c.fwmark else 1)) where
  listenAddr := by
    rw [valueOf_setup_of_mem withFwmark (by decide)]
    exact h.listenAddr
  upstreamProxy := by
    rw [valueOf_setup_of_mem withFwmark (by decide)]
    exact h.upstreamProxy
  logLevel := by
    rw [valueOf_setup_of_not_mem withFwmark (by decide)]
    rfl
  dns := by
    rw [present_setup_of_mem withFwmark (by decide)]
    exact h.dns
  dnsListen := by
    rw [valueOf_setup_of_mem withFwmark (by decide)]
    exact h.dnsListen
  dnsUpstream := by
    rw [valueOf_setup_of_not_mem withFwmark (by decide), Option.getD_none, DnsUpstream.fromStr,
      stripPrefix_eq_some_iff.mpr (show _ = "https://" ++ "cloudflare-dns.com/dns-query" by decide)]
    rfl
  dnsStripAaaa := (present_setup_of_not_mem withFwmark (by decide)).symm
  interface := by
    rw [valueOf_setup_of_mem withFwmark (by decide)]
    exact h.interface
  daemon := (present_setup_of_not_mem withFwmark (by decide)).symm
  pidFile := by
    rw [valueOf_setup_of_not_mem withFwmark (by decide)]
    rfl
  logFile := by
    rw [valueOf_setup_of_not_mem withFwmark (by decide)]
    rfl
  localTraffic := by
    rw [present_setup_of_mem withFwmark (by decide)]
    exact h.localTraffic
  proxyUser := by
    rw [valueOf_setup_of_not_mem withFwmark (by decide)]
    rfl
  fwmark := by
    rw [valueOf_setup_fwmark]
    cases withFwmark with
    | true => exact h.fwmark
    | false =>
      have hdefault : parseU32 "1".toList = some 1 := by decide
      exact hdefault
  gateway := (present_setup_of_not_mem withFwmark (by decide)).symm
  sni := (present_setup_of_not_mem withFwmark (by decide)).symm
  ports := by
    rw [valueOf_setup_of_mem withFwmark (by decide)]
    exact h.ports
  allowQuic := (present_setup_of_not_mem withFwmark (by decide)).symm
  install := (present_setup_of_not_mem withFwmark (by decide)).symm
  uninstall := (present_setup_of_not_mem withFwmark (by decide)).symm
  start := (present_setup_of_not_mem withFwmark (by decide)).symm
  stop := (present_setup_of_not_mem withFwmark (by decide)).symm
  setupFirewall := by
    rw [present_setupTokens (not_mem_setupOptions withFwmark (by decide))]
    rfl
  teardownFirewall := (present_setup_of_not_mem withFwmark (by decide)).symm

theorem looksLikeFlag_of_plain {value : String} (h : value.toList.head? ≠ some '-') :
    looksLikeFlag value = false := by
  simp [looksLikeFlag, h]

theorem exists_mem_of_valueOf {id : Opt} {value : String} (h : valueOf tokens id = some value) :
    ∃ t ∈ tokens, t.value = some value := by
  obtain ⟨t, hfind, hvalue⟩ := Option.bind_eq_some_iff.mp h
  exact ⟨t, List.mem_of_find?_eq_some hfind, hvalue⟩

/-- The setup command is accepted when there is an upstream proxy. -/
theorem parse_setupArgs (withFwmark : Bool) (hplain : PlainValues args)
    (hparse : Config.parse env platform args = some c) :
    Config.parse env platform (setupArgs ((setupOptions withFwmark).map Prod.fst)
      (setupSwitches.map Prod.fst) (filterServiceArgs args)) =
        if c.upstreamProxy.isSome then some (setupConfig c (if withFwmark then c.fwmark else 1))
        else none := by
  obtain ⟨tokens, htokens, _, hgiven, _⟩ := parse_eq_some_iff.mp hparse
  obtain ⟨rfl, hvalid⟩ := render_of_tokenize htokens
  have hsetup := valid_setupTokens (sole_setupOptions withFwmark) sole_setupSwitches
    (fun id value hvalue => by
      obtain ⟨t, ht, hvalue⟩ := exists_mem_of_valueOf hvalue
      exact looksLikeFlag_of_plain (hplain tokens htokens t ht value hvalue))
  have hnodup : (.setupFirewall :: ((setupOptions withFwmark).map Prod.snd ++
      setupSwitches.map Prod.snd)).Nodup := by
    cases withFwmark <;> decide
  have hvalues := ofValues_eq_some_iff.mpr (given_setupConfig withFwmark hgiven)
  have hrequired (fwmark : UInt32) :
      (setupConfig c fwmark).hasRequired = c.upstreamProxy.isSome := by
    simp [hasRequired, setupConfig]
  rw [setupArgs_render hvalid (sole_setupOptions withFwmark) sole_setupSwitches, Config.parse,
    tokenize_render hsetup]
  simp [nodup_setupTokens hnodup, hvalues, Option.filter_some, hrequired]

theorem fromConfig_setupConfig_eq_iff {fwmark : UInt32} :
    FirewallConfig.fromConfig env (setupConfig c fwmark) = FirewallConfig.fromConfig env c ↔
      c.allowQuic = false ∧ (c.localTraffic = true → fwmark = c.fwmark) := by
  have hdns : (setupConfig c fwmark).resolveDnsListen env = c.resolveDnsListen env := rfl
  have hinterface : (setupConfig c fwmark).interface = c.interface := rfl
  rw [FirewallConfig.fromConfig, FirewallConfig.fromConfig, FirewallConfig.mk.injEq, hdns]
  cases hquic : c.allowQuic with
  | true => simp [setupConfig]
  | false =>
    cases hlocal : c.localTraffic with
    | true => simp [setupConfig, proxyUdpEnabled, hquic, hlocal]
    | false => simp [setupConfig, proxyUdpEnabled, hquic, hlocal]

theorem agrees_iff (withFwmark : Bool) (hplain : PlainValues args)
    (hparse : Config.parse env platform args = some c) :
    Agrees env platform (setupArgs ((setupOptions withFwmark).map Prod.fst)
      (setupSwitches.map Prod.fst) (filterServiceArgs args)) c ↔
        c.upstreamProxy.isSome = true ∧ c.allowQuic = false ∧
          (c.localTraffic = true → (if withFwmark then c.fwmark else 1) = c.fwmark) := by
  rw [Agrees, parse_setupArgs withFwmark hplain hparse]
  cases hupstream : c.upstreamProxy.isSome with
  | false => simp
  | true => simp [fromConfig_setupConfig_eq_iff]

/-- The rules are those that the service expects exactly when there is an upstream proxy,
QUIC is not to pass, and, under launchd, a mark in use is the default one. -/
theorem setup_agrees_iff (hplain : PlainValues args)
    (hparse : Config.parse env platform args = some c) :
    (Agrees env platform (unitSetupArgs args) c ↔
      c.upstreamProxy.isSome = true ∧ c.allowQuic = false) ∧
    (Agrees env platform (wrapperSetupArgs args) c ↔
      c.upstreamProxy.isSome = true ∧ c.allowQuic = false ∧
        (c.localTraffic = true → c.fwmark = 1)) := by
  have hunit : unitSetupArgs args = setupArgs ((setupOptions true).map Prod.fst)
      (setupSwitches.map Prod.fst) (filterServiceArgs args) := rfl
  have hwrapper : wrapperSetupArgs args = setupArgs ((setupOptions false).map Prod.fst)
      (setupSwitches.map Prod.fst) (filterServiceArgs args) := rfl
  rw [hunit, hwrapper, agrees_iff true hplain hparse, agrees_iff false hplain hparse]
  exact ⟨by simp, by simp [eq_comm (a := (1 : UInt32))]⟩

end Commands

/-- No names resolve and there are no interfaces. -/
def exampleEnv : Env :=
  { lookupHost := fun _ _ => .error "no such host"
    ifaddrs := some [] }

def markedArgs : List String :=
  ["--ports=80,443", "--upstream-proxy", "127.0.0.1:1082", "--fwmark", "7", "--local-traffic",
    "--install"]

/-- A mark of its own is known to the unit but not to the wrapper. -/
theorem setup_agrees_iff_sample : ∃ c, Config.parse exampleEnv .linux markedArgs = some c ∧
    Agrees exampleEnv .linux (unitSetupArgs markedArgs) c ∧
      ¬ Agrees exampleEnv .linux (wrapperSetupArgs markedArgs) c := by
  have hfields : (Config.parse exampleEnv .linux markedArgs).map
      (fun c => (c.upstreamProxy.isSome, c.allowQuic, c.localTraffic, c.fwmark)) =
        some (true, false, true, 7) := by
    decide
  obtain ⟨c, hparse, hc⟩ := Option.map_eq_some_iff.mp hfields
  simp only [Prod.mk.injEq] at hc
  obtain ⟨hunit, hwrapper⟩ := setup_agrees_iff (by decide) hparse
  refine ⟨c, hparse, hunit.mpr ⟨hc.1, hc.2.1⟩, fun hagrees => ?_⟩
  have hmark := (hwrapper.mp hagrees).2.2 hc.2.2.1
  rw [hc.2.2.2] at hmark
  exact absurd hmark (by decide)

def allowQuicArgs : List String :=
  ["--upstream-proxy", "127.0.0.1:1082", "--allow-quic", "--install"]

/-- Neither setup command is told that QUIC may pass. -/
theorem not_agrees_allowQuic : ∃ c, Config.parse exampleEnv .linux allowQuicArgs = some c ∧
    c.install = true ∧ PlainValues allowQuicArgs ∧
      ¬ Agrees exampleEnv .linux (unitSetupArgs allowQuicArgs) c ∧
        ¬ Agrees exampleEnv .linux (wrapperSetupArgs allowQuicArgs) c := by
  have hfields : (Config.parse exampleEnv .linux allowQuicArgs).map
      (fun c => (c.install, c.allowQuic)) = some (true, true) := by
    decide
  have hunit : (Config.parse exampleEnv .linux (unitSetupArgs allowQuicArgs)).map
      (fun c => c.allowQuic) = some false := by
    decide
  have hwrapper : wrapperSetupArgs allowQuicArgs = unitSetupArgs allowQuicArgs := by
    decide
  obtain ⟨c, hparse, hc⟩ := Option.map_eq_some_iff.mp hfields
  simp only [Prod.mk.injEq] at hc
  have hnot : ¬ Agrees exampleEnv .linux (unitSetupArgs allowQuicArgs) c := by
    rintro ⟨c', hparse', hagrees⟩
    have hblock := congrArg FirewallConfig.blockQuic hagrees
    simp only [FirewallConfig.fromConfig, hc.2] at hblock
    rw [hparse'] at hunit
    simp_all
  refine ⟨c, hparse, hc.1, by decide, hnot, ?_⟩
  rwa [hwrapper]

end TransProxy.Service
