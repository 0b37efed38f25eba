import TransProxy.Firewall.Installed
import TransProxy.Proxy.Target

/-!
# Hosts with a history

The rules that earlier setups may have left, and what a setup that succeeds makes of the
rules for IPv4, whatever it started from.
-/
namespace TransProxy.Firewall
open Library Net Script

namespace Host
variable {host : Host} {f g : NftFamily} {c d : Chain} {rule : Rule} {cmd : Cmd} {o : Outcome}

theorem chain_deleteTable : (Cmd.apply host (.deleteTable f)).chain g d =
    if g = f then none else host.chain g d := by
  by_cases hg : g = f
  · simp [chain, Cmd.apply, hg]
  · simp [chain, Cmd.apply, hg]

/-- A rule was there before, or it is the one that is added. -/
theorem mem_rules_apply (h : rule ∈ (cmd.apply host).rules f c) :
    rule ∈ host.rules f c ∨ cmd = .addRule f c rule := by
  cases cmd with
  | deleteTable g =>
    rw [rules, chain_deleteTable] at h
    split_ifs at h
    · simp at h
    · exact .inl h
  | addTable g =>
    rw [rules, chain_addTable] at h
    exact .inl h
  | addChain g d =>
    rw [rules, chain_addChain] at h
    split_ifs at h with heq
    · obtain ⟨rfl, rfl⟩ := heq
      left
      cases htable : host.tables f with
      | none => simp [htable] at h
      | some t => simpa [rules, chain, htable] using h
    · exact .inl h
  | addRule g d added =>
    rw [rules, chain_addRule] at h
    split_ifs at h with heq
    · obtain ⟨rfl, rfl⟩ := heq
      cases hchain : host.chain f c with
      | none => simp [hchain] at h
      | some rules' =>
        simp only [hchain, Option.map_some, Option.getD_some, List.mem_append,
          List.mem_singleton] at h
        rcases h with h | rfl
        · exact .inl (by simpa [rules, hchain] using h)
        · exact .inr rfl
    · exact .inl h
  | setForwarding g on => exact .inl h
  | ruleDel g => exact .inl h
  | ruleAdd g => exact .inl h
  | routeFlush g => exact .inl h
  | routeAdd g => exact .inl h

/-- Every rule is one of a setup. -/
def RulesOfSetup (host : Host) : Prop := ∀ f c, ∀ rule ∈ host.rules f c, RuleOfSetup c rule

def AddsOfSetup (cmd : Cmd) : Prop := ∀ f c rule, cmd = .addRule f c rule → RuleOfSetup c rule

theorem RulesOfSetup.effect (h : host.RulesOfSetup) (hcmd : AddsOfSetup cmd) :
    (cmd.effect o host).RulesOfSetup := by
  refine Cmd.effect_induction h ?_
  intro f c rule hrule
  rcases mem_rules_apply hrule with hold | hnew
  · exact h f c rule hold
  · exact hcmd f c rule hnew

end Host

section Issued
variable {f : NftFamily} {fw : FirewallConfig} {addrs : InterfaceAddrs}

theorem OfSection.addsOfSetup {cmd : Cmd} (h : OfSection f cmd) : Host.AddsOfSetup cmd := by
  intro g c rule heq
  subst heq
  cases h with
  | addRule h => exact h

theorem issues_setupTproxyRouting :
    setupTproxyRouting.Issues (fun cmd => cmd.program = "ip") := by
  have hip : ∀ cmd : Cmd, cmd.program = "ip" →
      (.ignore cmd : FirewallScript Unit).Issues (fun cmd => cmd.program = "ip") :=
    fun cmd h => issues_ignore h
  have hone : ∀ cmd : Cmd, cmd.program = "ip" →
      (runCmds [cmd]).Issues (fun cmd => cmd.program = "ip") :=
    fun cmd h => issues_checkAll (List.forall_mem_singleton.mpr h)
  apply issues_bind (hip (.ruleDel .ip) rfl)
  intro _
  apply issues_bind (hone (.ruleAdd .ip) rfl)
  intro _
  apply issues_bind (hip (.routeFlush .ip) rfl)
  intro _
  apply issues_bind (hone (.routeAdd .ip) rfl)
  intro _
  apply issues_bind (hip (.ruleDel .ip6) rfl)
  intro _
  apply issues_bind (hip (.ruleAdd .ip6) rfl)
  intro _
  apply issues_bind (hip (.routeFlush .ip6) rfl)
  exact fun _ => hip (.routeAdd .ip6) rfl

theorem addsOfSetup_of_program {cmd : Cmd} (h : cmd.program ≠ "nft") : Host.AddsOfSetup cmd := by
  rintro f c rule rfl
  exact absurd rfl h

/-- A command on its own that adds no rule. -/
theorem addsOfSetup_of_ne {cmd : Cmd} (h : ∀ f c rule, cmd ≠ .addRule f c rule) :
    Host.AddsOfSetup cmd :=
  fun f c rule heq => absurd heq (h f c rule)

theorem issues_ignore_addsOfSetup {cmd : Cmd} (h : ∀ f c rule, cmd ≠ .addRule f c rule) :
    (.ignore cmd : FirewallScript Unit).Issues Host.AddsOfSetup :=
  issues_ignore (addsOfSetup_of_ne h)

theorem issues_runCmds_addsOfSetup {cmd : Cmd} (h : ∀ f c rule, cmd ≠ .addRule f c rule) :
    (runCmds [cmd]).Issues Host.AddsOfSetup :=
  issues_checkAll (List.forall_mem_singleton.mpr (addsOfSetup_of_ne h))

theorem issues_setup : (setup fw addrs).Issues Host.AddsOfSetup := by
  have hfamily : ∀ f, (setupFamily f fw addrs).Issues Host.AddsOfSetup :=
    fun f => issues_setupFamily.mono fun _ => OfSection.addsOfSetup
  apply issues_bind (issues_ignore_addsOfSetup (by simp))
  intro _
  apply issues_bind (issues_ignore_addsOfSetup (by simp))
  intro _
  apply issues_bind (issues_runCmds_addsOfSetup (by simp))
  intro _
  apply issues_bind (issues_ignore_addsOfSetup (by simp))
  intro _
  apply issues_bind (hfamily .ip)
  intro _
  apply issues_bind (issues_attempt (hfamily .ip6))
  intro _
  split_ifs
  · apply issues_bind
    · apply issues_attempt
      exact issues_setupTproxyRouting.mono fun cmd hcmd => addsOfSetup_of_program (by simp [hcmd])
    · exact fun _ => issues_done ()
  · exact issues_done ()

theorem issues_teardown : teardown.Issues Host.AddsOfSetup := by
  apply issues_bind (issues_ignore_addsOfSetup (by simp))
  intro _
  apply issues_bind (issues_ignore_addsOfSetup (by simp))
  intro _
  apply issues_bind
  · apply issues_bind (issues_ignore_addsOfSetup (by simp))
    intro _
    apply issues_bind (issues_ignore_addsOfSetup (by simp))
    intro _
    apply issues_bind (issues_ignore_addsOfSetup (by simp))
    exact fun _ => issues_ignore_addsOfSetup (by simp)
  intro _
  apply issues_bind (issues_runCmds_addsOfSetup (by simp))
  exact fun _ => issues_ignore_addsOfSetup (by simp)

end Issued

theorem Host.RulesOfSetup.after {host : Host} {trace : List (Cmd × Outcome)}
    (h : host.RulesOfSetup) (hadds : ∀ e ∈ trace, Host.AddsOfSetup e.1) :
    (host.after trace).RulesOfSetup :=
  after_induction h fun e he _ hx => hx.effect (hadds e he)

/-- Whatever became of the earlier runs, the rules are those of setups. -/
theorem Host.Reachable.rulesOfSetup {host : Host} (h : host.Reachable) : host.RulesOfSetup := by
  induction h with
  | clean h =>
    intro f c rule hrule
    simp [Host.rules, Host.chain, h.tables f] at hrule
  | setup _ hruns ih =>
    exact ih.after fun e he => issues_setup _ _ hruns e (List.mem_append_left _ he)
  | teardown _ hruns ih =>
    exact ih.after fun e he => issues_teardown _ _ hruns e (List.mem_append_left _ he)

section AfterSetup
variable {fw : FirewallConfig} {addrs : InterfaceAddrs} {trace : List (Cmd × Outcome)}

theorem OfSection.target_ne {f g : NftFamily} {cmd : Cmd} {c : Chain} (h : OfSection f cmd)
    (hne : f ≠ g) : cmd.target ≠ some (g, c) := by
  cases h <;> simp [Cmd.target, hne]

theorem target_of_program {cmd : Cmd} (h : cmd.program ≠ "nft") : cmd.target = none := by
  cases cmd <;> simp_all [Cmd.program, Cmd.target]

theorem not_failedOn_of_target {f : NftFamily} {c : Chain}
    (h : ∀ e ∈ trace, e.1.target ≠ some (f, c)) : ¬FailedOn f c trace := by
  rintro ⟨e, he, htarget, _⟩
  exact h e he htarget

theorem program_of_routing (h : trace = [] ∨ ∃ r, setupTproxyRouting.Runs trace r) :
    ∀ e ∈ trace, e.1.program = "ip" := by
  rcases h with rfl | ⟨r, hr⟩
  · simp
  · exact issues_setupTproxyRouting _ _ hr

/-- Behind what the deletions have left there are all rules of the section for IPv4, and
IPv4 is forwarded. -/
theorem SetupOk.rules_ip (h : SetupOk fw addrs trace) (host : Host) :
    ∃ strategy, Chosen fw .ip trace strategy ∧ (host.after trace).forwarding .ip = true ∧
      ∀ d, (host.after trace).rules .ip d = (host.after (trace.take 2)).rules .ip d ++
        (natRules .ip fw addrs d ++ udpRules fw strategy d) := by
  obtain @⟨o, o', o6, section4, section6, routing, r6, h4, h6, hrouting⟩ := h
  have hip := program_of_routing hrouting
  have hsection := issues_setupFamily _ _ h4
  have hsection6 := issues_setupFamily _ _ h6
  let start := host.after [(.deleteTable .ip, o), (.deleteTable .ip6, o')]
  let ready := start.after [(.setForwarding .ip true, .success), (.setForwarding .ip6 true, o6)]
  have hforward : ready.forwarding .ip = true := by
    cases o6 <;> rfl
  have hready : ready.tables = start.tables := Host.tables_after (by simp [Cmd.program])
  have hwhole : host.after ([(.deleteTable .ip, o), (.deleteTable .ip6, o'),
      (.setForwarding .ip true, .success), (.setForwarding .ip6 true, o6)] ++
        (section4 ++ (section6 ++ routing))) =
      ((ready.after section4).after section6).after routing := by
    rw [Host.after_append, Host.after_append, Host.after_append]
    rfl
  -- the section for IPv6 and the routing commands act on other parts
  have hpart : ((ready.after section4).after section6).part .ip =
      (ready.after section4).part .ip := by
    apply Host.part_after
    intro e he
    simp [(hsection6 e he).family]
  obtain ⟨strategy, hchosen, hadds⟩ : ∃ strategy, Chosen fw .ip section4 strategy ∧
      ready.Adds .ip (fun d => natRules .ip fw addrs d ++ udpRules fw strategy d) section4 :=
    adds_setupFamily h4
  refine ⟨strategy, ?_, ?_, ?_⟩
  · have hiff : FailedOn .ip .tproxyPrerouting ([(.deleteTable .ip, o), (.deleteTable .ip6, o'),
        (.setForwarding .ip true, .success), (.setForwarding .ip6 true, o6)] ++
          (section4 ++ (section6 ++ routing))) ↔ FailedOn .ip .tproxyPrerouting section4 := by
      have h1 : ¬FailedOn .ip .tproxyPrerouting [(.deleteTable .ip, o), (.deleteTable .ip6, o'),
          (.setForwarding .ip true, .success), (.setForwarding .ip6 true, o6)] :=
        not_failedOn_of_target (by simp [Cmd.target])
      have h2 : ¬FailedOn .ip .tproxyPrerouting section6 :=
        not_failedOn_of_target fun e he => (hsection6 e he).target_ne (by decide)
      have h3 : ¬FailedOn .ip .tproxyPrerouting routing :=
        not_failedOn_of_target fun e he => by simp [target_of_program, hip e he]
      rw [failedOn_append, failedOn_append, failedOn_append]
      simp [h1, h2, h3]
    exact hchosen.congr hiff.symm
  · rw [hwhole, Host.forwarding_after fun e he => by simp [hip e he]]
    rw [show ((ready.after section4).after section6).forwarding .ip =
      (ready.after section4).forwarding .ip from congrArg (·.2.1) hpart]
    rw [Host.forwarding_after fun e he => by simp [(hsection e he).program]]
    exact hforward
  · intro d
    rw [hwhole, Host.rules_congr (congrFun (Host.tables_after fun e he => by simp [hip e he]) .ip)]
    rw [Host.rules_congr (congrArg Prod.fst hpart), hadds.rules d]
    rw [Host.rules_congr (congrFun hready .ip)]
    rfl

end AfterSetup

def sampleEnv : Config.Env := { lookupHost := fun _ _ => .error "", ifaddrs := none }

/-- A SOCKS5 upstream, and the defaults. -/
def sampleSocks5 : Config :=
  Proxy.sampleConfig (.v4 .unspecified 8443)
    { protocol := .socks5 .none, addr := .v4 (.new 192 0 2 1) 1080 }

def sampleAddrs : InterfaceAddrs := { ipv4 := some (.new 192 168 1 1), ipv6 := none }

def sampleHost : Host :=
  { tables := fun _ => none, forwarding := fun _ => false, markRules := fun _ => 0
    markRoute := fun _ => false }

def sampleTrace (config : Config) : List (Cmd × Outcome) :=
  ((setup (.fromConfig sampleEnv config) sampleAddrs).run fun _ => .success).1

theorem runs_sampleTrace (config : Config)
    (hok : ((setup (.fromConfig sampleEnv config) sampleAddrs).run fun _ => .success).2 = .ok ()) :
    (setup (.fromConfig sampleEnv config) sampleAddrs).Runs (sampleTrace config) (.ok ()) := by
  rw [← hok]
  exact Script.runs_run _ _

def sampleNetwork : Network :=
  { isLocal := fun ip => ip = .v4 (.new 192 168 1 1), transparent := fun _ _ => true }

theorem clean_sampleHost : sampleHost.Clean := ⟨fun _ => rfl, fun _ => rfl, fun _ => rfl⟩

end TransProxy.Firewall
