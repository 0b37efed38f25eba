import TransProxy.Firewall.History

/-!
# Setups that stop anywhere

A setup ends at the first command that fails, and its section for IPv6 does so without an
error of the whole. The chains then hold the beginning of what they were to hold, which is
the rules whose commands succeeded.
-/
namespace TransProxy.Firewall
open Library Net Script

def sectionRules (f : NftFamily) (fw : FirewallConfig) (addrs : InterfaceAddrs) :
    Chain → List Rule
  | .prerouting => preroutingRules f fw addrs
  | .output =>
    match fw.fwmark with
    | none => []
    | some fwmark => outputRules f fw addrs fwmark
  | .tproxyPrerouting => if fw.proxyUdp then tproxyRules fw else []
  | .quicForward => quicForwardRules fw
  | .quicOutput => quicOutputRules fw

namespace Host
variable {host : Host} {f : NftFamily} {full more : Chain → List Rule}
  {trace rest : List (Cmd × Outcome)}

/-- What comes behind rules that may be incomplete has to be for other chains. -/
theorem AddsUpTo.append (h : host.AddsUpTo f full trace)
    (h' : (host.after trace).AddsUpTo f more rest) (hdisj : ∀ d, full d = [] ∨ more d = []) :
    host.AddsUpTo f (fun d => full d ++ more d) (trace ++ rest) := by
  obtain ⟨added, hadds, hinit⟩ := h
  obtain ⟨added', hadds', hinit'⟩ := h'
  refine ⟨_, hadds.append hadds', fun d => ?_⟩
  change added d ++ added' d <+: full d ++ more d
  rcases hdisj d with hfull | hmore
  · have hnil : added d = [] := List.prefix_nil.mp (hfull ▸ hinit d)
    rw [hfull, hnil]
    exact hinit' d
  · have hnil : added' d = [] := List.prefix_nil.mp (hmore ▸ hinit' d)
    rw [hmore, hnil, List.append_nil, List.append_nil]
    exact hinit d

/-- Commands for something else. -/
theorem adds_none (htables : (host.after trace).tables f = host.tables f)
    (hother : ∀ e ∈ trace, ∀ d rule, e.1 ≠ .addRule f d rule) :
    host.Adds f (fun _ => []) trace where
  table h := by rwa [htables]
  rules d := by rw [rules_congr htables, List.append_nil]
  issued d rule := by
    simp only [List.not_mem_nil, iff_false]
    exact fun he => hother _ he d rule rfl

end Host

section Sections
open Host
variable {f : NftFamily} {fw : FirewallConfig} {addrs : InterfaceAddrs} {host : Host}
  {trace : List (Cmd × Outcome)} {result : Except String Unit}

def udpSectionRules (fw : FirewallConfig) (d : Chain) : List Rule :=
  only .tproxyPrerouting (if fw.proxyUdp then tproxyRules fw else []) d ++
    (only .quicForward (quicForwardRules fw) d ++ only .quicOutput (quicOutputRules fw) d)

theorem addsUpTo_setupUdpHandling (htable : (host.tables f).isSome)
    (hruns : (setupUdpHandling fw f).Runs trace result) :
    host.AddsUpTo f (udpSectionRules fw) trace := by
  unfold setupUdpHandling at hruns
  split_ifs at hruns with hproxy
  · obtain ⟨first, tproxy, second, h1, h2, rfl⟩ := runs_attempt_bind.mp hruns
    have hfirst : host.AddsUpTo f (only .tproxyPrerouting (tproxyRules fw)) first :=
      builds_setupUdpTproxy.upTo htable h1
    have hsome := hfirst.table htable
    have hsecond : (host.after first).AddsUpTo f (fun d =>
        only .quicForward (quicForwardRules fw) d ++ only .quicOutput (quicOutputRules fw) d)
          second := by
      cases tproxy with
      | ok _ =>
        refine (builds_setupQuicBlockOutput.upTo hsome h2).mono fun d => ?_
        cases d <;> simp [only]
      | error _ => exact builds_setupQuicBlock.upTo hsome h2
    have hboth := hfirst.append hsecond fun d => by cases d <;> simp [only]
    refine hboth.mono fun d => ?_
    simp [udpSectionRules, hproxy]
  · refine (builds_setupQuicBlock.upTo htable hruns).mono fun d => ?_
    simp [udpSectionRules, hproxy]
  · rw [(runs_done.mp hruns).1]
    exact addsUpTo_nil

/-- A section on a host with or without its table. -/
theorem addsUpTo_setupFamily (hruns : (setupFamily f fw addrs).Runs trace result) :
    host.AddsUpTo f (sectionRules f fw addrs) trace := by
  have hscript : setupFamily f fw addrs = (check runCmdError (.addTable f)).bind fun _ =>
      (runCmds (natChainCmds f fw addrs)).bind fun _ => setupUdpHandling fw f := by
    rw [← bind_assoc, ← runCmds_natCmds]
    rfl
  have hudp : ∀ d, natRules f fw addrs d ++ udpSectionRules fw d <+: sectionRules f fw addrs d := by
    intro d
    cases d with
    | output =>
      cases hmark : fw.fwmark <;> simp [sectionRules, udpSectionRules, natRules, only, hmark]
    | _ => simp [sectionRules, udpSectionRules, only]
  have hnat : ∀ d, natRules f fw addrs d <+: sectionRules f fw addrs d := fun d =>
    (List.prefix_append _ _).trans (hudp d)
  rw [hscript] at hruns
  obtain ⟨_, u, rest, h1, hrest, rfl⟩ | ⟨e, h1, _⟩ := runs_bind.mp hruns
  · obtain ⟨o, herror, rfl⟩ := runs_check_ok.mp h1
    obtain ⟨hsome, hfirst⟩ : ((host.after [(.addTable f, o)]).tables f).isSome ∧
        host.Adds f (fun _ => []) [(.addTable f, o)] := adds_addTable herror
    obtain ⟨nat, _, udp, h2, h3, rfl⟩ | ⟨e, h2, _⟩ := runs_bind.mp hrest
    · have hchains := builds_natChainCmds.ok hsome h2
      obtain ⟨added, hadds, hinit⟩ := addsUpTo_setupUdpHandling (hchains.table hsome) h3
      refine ⟨_, hfirst.append (hchains.append hadds), fun d => ?_⟩
      exact ((List.prefix_append_right_inj _).mpr (hinit d)).trans (hudp d)
    · obtain ⟨added, hadds, hinit⟩ := builds_natChainCmds.error hsome h2
      exact ⟨_, hfirst.append hadds, fun d => (hinit d).trans (hnat d)⟩
  · obtain ⟨o, herror, rfl⟩ := runs_check_error.mp h1
    exact ⟨_, Host.Adds.append_failed adds_nil (runCmdError_ne_none herror),
      fun _ => List.nil_prefix⟩

end Sections

/-- A command that is given before the sections. -/
inductive Preliminary : Cmd → Prop
  | deleteTable (f : NftFamily) : Preliminary (.deleteTable f)
  | setForwarding (f : NftFamily) (on : Bool) : Preliminary (.setForwarding f on)

/-- The trace of a setup, which may lack any of the later parts. -/
inductive SetupTrace (fw : FirewallConfig) (addrs : InterfaceAddrs) : List (Cmd × Outcome) → Prop
  | mk {first trace trace6 routing : List (Cmd × Outcome)} (hfirst : ∀ e ∈ first, Preliminary e.1)
      (h : trace = [] ∨ ∃ r, (setupFamily .ip fw addrs).Runs trace r)
      (h6 : trace6 = [] ∨ ∃ r, (setupFamily .ip6 fw addrs).Runs trace6 r)
      (hrouting : routing = [] ∨ ∃ r, setupTproxyRouting.Runs routing r) :
      SetupTrace fw addrs (first ++ (trace ++ (trace6 ++ routing)))

section Setup
open Host
variable {fw : FirewallConfig} {addrs : InterfaceAddrs} {host : Host}
  {trace : List (Cmd × Outcome)} {result : Except String Unit}

theorem setupTrace_of_runs (hruns : (setup fw addrs).Runs trace result) :
    SetupTrace fw addrs trace := by
  obtain ⟨o, _, hrest, rfl⟩ := runs_ignore_bind.mp hruns
  obtain ⟨o', _, hrest', rfl⟩ := runs_ignore_bind.mp hrest
  obtain ⟨forwarding, _, rest, h3, h4, rfl⟩ | ⟨e, h3, _⟩ := runs_bind.mp hrest'
  · obtain rfl := runs_runCmds_one h3
    obtain ⟨o6, _, hsections, rfl⟩ := runs_ignore_bind.mp h4
    have hfirst : ∀ e ∈ [(Cmd.deleteTable .ip, o), (.deleteTable .ip6, o'),
        (.setForwarding .ip true, .success), (.setForwarding .ip6 true, o6)], Preliminary e.1 := by
      simp [Preliminary.deleteTable, Preliminary.setForwarding]
    obtain ⟨section4, _, rest, h5, h6, rfl⟩ | ⟨e, h5, _⟩ := runs_bind.mp hsections
    · obtain ⟨section6, r6, routing, hr6, h7, rfl⟩ := runs_attempt_bind.mp h6
      exact .mk hfirst (.inr ⟨_, h5⟩) (.inr ⟨r6, hr6⟩) (routing_of_runs_last h7)
    · have htrace := SetupTrace.mk hfirst (.inr ⟨_, h5⟩) (.inl rfl) (.inl rfl)
      simpa using htrace
  · obtain ⟨o3, rfl, _⟩ := runs_runCmds_one_error h3
    have hfirst : ∀ e ∈ [(Cmd.deleteTable .ip, o), (.deleteTable .ip6, o'),
        (.setForwarding .ip true, o3)], Preliminary e.1 := by
      simp [Preliminary.deleteTable, Preliminary.setForwarding]
    have htrace : SetupTrace fw addrs (_ ++ ([] ++ ([] ++ []))) :=
      .mk hfirst (.inl rfl) (.inl rfl) (.inl rfl)
    simpa using htrace

/-- On a host without tables, deletions do not matter. -/
theorem tables_preliminary (hclean : host.Clean) (h : ∀ e ∈ trace, Preliminary e.1) :
    (host.after trace).tables = host.tables := by
  let Empty : Host → Prop := fun x => x.tables = fun _ => none
  have hbefore : Empty host := funext hclean.tables
  have hafter : Empty (host.after trace) := by
    apply after_induction hbefore
    intro e he x hx
    refine Cmd.effect_induction (P := Empty) hx ?_
    rcases e with ⟨cmd, o⟩
    cases h _ he with
    | deleteTable g =>
      funext f
      by_cases hf : f = g
      · simp [Cmd.apply, hf]
      · simpa [Cmd.apply, hf] using congrFun hx f
    | setForwarding g on => exact hx
  exact hafter.trans hbefore.symm

theorem addsUpTo_section {f : NftFamily}
    (h : trace = [] ∨ ∃ r, (setupFamily f fw addrs).Runs trace r) :
    host.AddsUpTo f (sectionRules f fw addrs) trace := by
  rcases h with rfl | ⟨r, hr⟩
  · exact addsUpTo_nil
  · exact addsUpTo_setupFamily hr

/-- The section of the other family. -/
theorem adds_none_section {f g : NftFamily} (hne : g ≠ f)
    (h : trace = [] ∨ ∃ r, (setupFamily g fw addrs).Runs trace r) :
    host.Adds f (fun _ => []) trace := by
  have hsection : ∀ e ∈ trace, OfSection g e.1 := by
    rcases h with rfl | ⟨r, hr⟩
    · simp
    · exact issues_setupFamily _ _ hr
  have hfamily : ∀ e ∈ trace, e.1.family ≠ f := fun e he => by
    rw [(hsection e he).family]
    exact hne
  apply adds_none
  · exact congrArg Prod.fst (part_after hfamily)
  · intro e he d rule heq
    apply hfamily e he
    rw [heq]
    rfl

theorem adds_none_routing {f : NftFamily} (h : ∀ e ∈ trace, e.1.program = "ip") :
    host.Adds f (fun _ => []) trace := by
  apply adds_none
  · exact congrFun (tables_after fun e he => by simp [h e he]) f
  · intro e he d rule heq
    have hip := h e he
    rw [heq] at hip
    exact absurd hip (by simp [Cmd.program])

/-- Whatever a setup comes to on a clean host, the rules of a family are the beginning of
those of its section. -/
theorem addsUpTo_setup (hclean : host.Clean) (hruns : (setup fw addrs).Runs trace result)
    (f : NftFamily) : host.AddsUpTo f (sectionRules f fw addrs) trace := by
  obtain @⟨first, trace4, trace6, routing, hfirst, h4, h6, hrouting⟩ := setupTrace_of_runs hruns
  have hbefore : host.Adds f (fun _ => []) first := by
    apply adds_none (congrFun (tables_preliminary hclean hfirst) f)
    intro e he d rule heq
    have hcmd := hfirst e he
    rw [heq] at hcmd
    cases hcmd
  have hip := program_of_routing hrouting
  cases f with
  | ip =>
    obtain ⟨added, hadds, hinit⟩ :
        (host.after first).AddsUpTo .ip (sectionRules .ip fw addrs) trace4 :=
      addsUpTo_section h4
    have hother : ((host.after first).after trace4).Adds .ip (fun _ => []) trace6 :=
      adds_none_section (by decide) h6
    refine ⟨_, hbefore.append (hadds.append (hother.append (adds_none_routing hip))), fun d => ?_⟩
    simpa using hinit d
  | ip6 =>
    have hother : (host.after first).Adds .ip6 (fun _ => []) trace4 :=
      adds_none_section (by decide) h4
    obtain ⟨added, hadds, hinit⟩ :
        ((host.after first).after trace4).AddsUpTo .ip6 (sectionRules .ip6 fw addrs) trace6 :=
      addsUpTo_section h6
    refine ⟨_, hbefore.append (hother.append (hadds.append (adds_none_routing hip))), fun d => ?_⟩
    simpa using hinit d

def routingTrace (f : NftFamily) (o1 o2 o3 o4 : Outcome) : List (Cmd × Outcome) :=
  [(.ruleDel f, o1), (.ruleAdd f, o2), (.routeFlush f, o3), (.routeAdd f, o4)]

/-- A trace that ends early is as good as one where the commands that are left fail. -/
def AsIfComplete (trace : List (Cmd × Outcome)) : Prop :=
  ∃ o1 o2 o3 o4 o5 o6 o7 o8 : Outcome,
    (∀ host : Host, host.after trace =
      (host.after (routingTrace .ip o1 o2 o3 o4)).after (routingTrace .ip6 o5 o6 o7 o8)) ∧
    ∀ cmd, (cmd, .success) ∈ trace ↔
      (cmd, .success) ∈ routingTrace .ip o1 o2 o3 o4 ++ routingTrace .ip6 o5 o6 o7 o8

theorem asIfComplete_nil : AsIfComplete [] :=
  ⟨.failed none, .failed none, .failed none, .failed none, .failed none, .failed none,
    .failed none, .failed none, fun _ => rfl, by simp [routingTrace]⟩

theorem asIfComplete_of_runs {r : Except String Unit} (hruns : setupTproxyRouting.Runs trace r) :
    AsIfComplete trace := by
  obtain ⟨o1, _, hrest1, rfl⟩ := runs_ignore_bind.mp hruns
  obtain ⟨_, _, rest, h2, hrest2, rfl⟩ | ⟨e, h2, _⟩ := runs_bind.mp hrest1
  · obtain rfl := runs_runCmds_one h2
    obtain ⟨o3, _, hrest3, rfl⟩ := runs_ignore_bind.mp hrest2
    obtain ⟨_, _, rest, h4, hrest4, rfl⟩ | ⟨e, h4, _⟩ := runs_bind.mp hrest3
    · obtain rfl := runs_runCmds_one h4
      obtain ⟨o5, _, hrest5, rfl⟩ := runs_ignore_bind.mp hrest4
      obtain ⟨o6, _, hrest6, rfl⟩ := runs_ignore_bind.mp hrest5
      obtain ⟨o7, _, hrest7, rfl⟩ := runs_ignore_bind.mp hrest6
      obtain ⟨o8, rfl, _⟩ := runs_ignore.mp hrest7
      exact ⟨o1, .success, o3, .success, o5, o6, o7, o8, fun _ => rfl, fun _ => Iff.rfl⟩
    · obtain ⟨o4, rfl, _⟩ := runs_runCmds_one_error h4
      refine ⟨o1, .success, o3, o4, .failed none, .failed none, .failed none, .failed none,
        fun _ => rfl, ?_⟩
      simp [routingTrace]
  · obtain ⟨o2, rfl, _⟩ := runs_runCmds_one_error h2
    refine ⟨o1, o2, .failed none, .failed none, .failed none, .failed none, .failed none,
      .failed none, fun _ => rfl, ?_⟩
    simp [routingTrace]

theorem after_routingTrace {f : NftFamily} (hrules : host.markRules f = 0)
    (hroute : host.markRoute f = false) (o1 o2 o3 o4 : Outcome) :
    (0 < (host.after (routingTrace f o1 o2 o3 o4)).markRules f ↔ o2 = .success) ∧
      ((host.after (routingTrace f o1 o2 o3 o4)).markRoute f = true ↔ o4 = .success) := by
  simp only [routingTrace, Host.after, after_cons, after_nil, Cmd.effect]
  constructor
  · split_ifs <;> simp_all [Cmd.apply]
  · split_ifs <;> simp_all [Cmd.apply]

theorem AsIfComplete.after (h : AsIfComplete trace) (hrules : ∀ f, host.markRules f = 0)
    (hroute : ∀ f, host.markRoute f = false) (f : NftFamily) :
    (0 < (host.after trace).markRules f ↔ (.ruleAdd f, .success) ∈ trace) ∧
      ((host.after trace).markRoute f = true ↔ (.routeAdd f, .success) ∈ trace) := by
  obtain ⟨o1, o2, o3, o4, o5, o6, o7, o8, hafter, hmem⟩ := h
  rw [hafter, hmem, hmem]
  have hframe : ∀ (host : Host) (f g : NftFamily) {a b c d : Outcome}, f ≠ g →
      (host.after (routingTrace f a b c d)).markRules g = host.markRules g ∧
        (host.after (routingTrace f a b c d)).markRoute g = host.markRoute g := by
    intro host f g a b c d hne
    have hpart : (host.after (routingTrace f a b c d)).part g = host.part g :=
      part_after (by simp [routingTrace, Cmd.family, hne])
    exact ⟨congrArg (·.2.2.1) hpart, congrArg (·.2.2.2) hpart⟩
  cases f with
  | ip =>
    obtain ⟨hmark, hto⟩ := hframe (host.after (routingTrace .ip o1 o2 o3 o4)) .ip6 .ip (by decide)
    obtain ⟨hadd, hlocal⟩ := after_routingTrace (hrules .ip) (hroute .ip) o1 o2 o3 o4
    rw [hmark, hto, hadd, hlocal]
    simp [routingTrace, eq_comm]
  | ip6 =>
    obtain ⟨hmark, hto⟩ := hframe host .ip .ip6 (by decide)
    obtain ⟨hadd, hlocal⟩ := after_routingTrace (hmark.trans (hrules .ip6))
      (hto.trans (hroute .ip6)) o5 o6 o7 o8
    rw [hadd, hlocal]
    simp [routingTrace, eq_comm]

theorem Preliminary.program {cmd : Cmd} (h : Preliminary cmd) : cmd.program ≠ "ip" := by
  cases h <;> simp [Cmd.program]

/-- The lookup rule and the route of a family are there if their commands succeeded. -/
theorem routing_of_runs (hclean : host.Clean) (hruns : (setup fw addrs).Runs trace result)
    (f : NftFamily) : (0 < (host.after trace).markRules f ↔ (.ruleAdd f, .success) ∈ trace) ∧
      ((host.after trace).markRoute f = true ↔ (.routeAdd f, .success) ∈ trace) := by
  obtain @⟨first, trace4, trace6, routing, hfirst, h4, h6, hrouting⟩ := setupTrace_of_runs hruns
  have hother : ∀ e ∈ first ++ (trace4 ++ trace6), e.1.program ≠ "ip" := by
    have hsection : ∀ {g : NftFamily} {trace : List (Cmd × Outcome)},
        (trace = [] ∨ ∃ r, (setupFamily g fw addrs).Runs trace r) →
          ∀ e ∈ trace, e.1.program ≠ "ip" := by
      rintro g trace (rfl | ⟨r, hr⟩) e he
      · simp at he
      · simp [(issues_setupFamily _ _ hr e he).program]
    simp only [List.forall_mem_append]
    exact ⟨fun e he => (hfirst e he).program, hsection h4, hsection h6⟩
  obtain ⟨hrules, hroute⟩ :
      (host.after (first ++ (trace4 ++ trace6))).markRules = host.markRules ∧
        (host.after (first ++ (trace4 ++ trace6))).markRoute = host.markRoute :=
    routing_after hother
  have hcomplete : AsIfComplete routing := by
    rcases hrouting with rfl | ⟨r, hr⟩
    · exact asIfComplete_nil
    · exact asIfComplete_of_runs hr
  have hmem : ∀ cmd : Cmd, cmd.program = "ip" →
      ((cmd, .success) ∈ first ++ (trace4 ++ trace6) ++ routing ↔ (cmd, .success) ∈ routing) :=
    fun cmd hip => List.mem_append.trans (or_iff_right fun he => hother _ he hip)
  have hassoc : first ++ (trace4 ++ (trace6 ++ routing)) =
      first ++ (trace4 ++ trace6) ++ routing := by simp
  rw [hassoc, hmem _ rfl, hmem _ rfl, Host.after_append]
  exact hcomplete.after (fun f => by rw [hrules, hclean.markRules])
    (fun f => by rw [hroute, hclean.markRoute]) f

/-- What is in the chains after a setup on a clean host. -/
structure Progress (fw : FirewallConfig) (addrs : InterfaceAddrs) (trace : List (Cmd × Outcome))
    (host : Host) : Prop where
  rules : ∀ f d, host.rules f d <+: sectionRules f fw addrs d
  issued : ∀ f d rule, rule ∈ host.rules f d ↔ (.addRule f d rule, .success) ∈ trace

theorem progress_of_runs (hclean : host.Clean) (hruns : (setup fw addrs).Runs trace result) :
    Progress fw addrs trace (host.after trace) := by
  have hrules : ∀ f, ∃ added, host.Adds f added trace ∧
      (∀ d, added d <+: sectionRules f fw addrs d) ∧
        ∀ d, (host.after trace).rules f d = added d := by
    intro f
    obtain ⟨added, hadds, hinit⟩ := addsUpTo_setup hclean hruns f
    refine ⟨added, hadds, hinit, fun d => ?_⟩
    rw [hadds.rules, Host.rules, Host.chain, hclean.tables]
    rfl
  constructor
  · intro f d
    obtain ⟨added, _, hinit, heq⟩ := hrules f
    rw [heq]
    exact hinit d
  · intro f d rule
    obtain ⟨added, hadds, _, heq⟩ := hrules f
    rw [heq, hadds.issued]

/-- The rules against QUIC of the host's own are the same, however QUIC is handled. -/
theorem Chosen.udpRules_quicOutput {f : NftFamily} {strategy : QuicStrategy}
    (h : Chosen fw f trace strategy) : udpRules fw strategy .quicOutput = quicOutputRules fw := by
  cases h with
  | pass _ hblock =>
    have hports : fw.quicBlockPorts = [] := by simp [FirewallConfig.quicBlockPorts, hblock]
    unfold quicOutputRules
    rw [hports]
    cases fw.fwmark <;> rfl
  | tproxy _ _ => simp [udpRules, only]
  | fallback _ _ _ => simp [udpRules, only]
  | drop _ _ => simp [udpRules, only]

/-- After a setup that succeeds, the output chains for IPv4 are complete. -/
theorem output_rules_ip (hclean : host.Clean) (hruns : (setup fw addrs).Runs trace (.ok ())) :
    (host.after trace).rules .ip .output = sectionRules .ip fw addrs .output ∧
      (host.after trace).rules .ip .quicOutput = sectionRules .ip fw addrs .quicOutput := by
  have hok := setupOk_of_runs hruns
  obtain ⟨strategy, hchosen, _, hrules⟩ := hok.rules_ip host
  have hdeleted : ∀ d, (host.after (trace.take 2)).rules .ip d = [] := by
    intro d
    obtain @⟨o, o', _, _, _, _, _, _, _, _⟩ := hok
    have htables : (host.after [(.deleteTable .ip, o), (.deleteTable .ip6, o')]).tables =
        host.tables := tables_preliminary hclean (by simp [Preliminary.deleteTable])
    have hnone : (host.after [(.deleteTable .ip, o), (.deleteTable .ip6, o')]).tables .ip = none :=
      (congrFun htables .ip).trans (hclean.tables .ip)
    simp [Host.rules, Host.chain, hnone]
  rw [hrules, hrules, hdeleted, hdeleted, List.nil_append, List.nil_append,
    hchosen.udpRules_quicOutput]
  constructor
  · cases hmark : fw.fwmark <;> simp [natRules, sectionRules, only, hmark]
  · simp [sectionRules]

end Setup
end TransProxy.Firewall
