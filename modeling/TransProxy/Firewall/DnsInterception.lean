import TransProxy.Firewall.PfTraffic
import TransProxy.Firewall.Repeated

/-!
# DNS from the LAN

Where there is a target for DNS, every query of the LAN is to go there and nothing else is,
with nftables and with pf. What comes in the way is that later rules see the packets with
the address of the target.
-/
namespace TransProxy.Firewall
open Library Net Script PacketFilter

section Installed
variable {host : Host} {fw : FirewallConfig} {addrs : InterfaceAddrs} {f : NftFamily}
  {trace : List (Cmd × Outcome)} {result : Except String Unit}

theorem Host.applyAll_eq_after (cmds : List Cmd) :
    host.applyAll cmds = host.after (cmds.map fun cmd => (cmd, .success)) := by
  have hsuccess : host.Effective (cmds.map fun cmd => (cmd, Outcome.success)) :=
    Host.effective_of_success (by simp)
  rw [hsuccess.after_eq, List.map_map]
  exact congrArg host.applyAll (List.map_id cmds).symm

def quicStrategy (fw : FirewallConfig) : QuicStrategy :=
  if fw.proxyUdp then .tproxy else if fw.blockQuic then .drop 0 else .pass

theorem Chosen.eq_quicStrategy {strategy : QuicStrategy} (h : Chosen fw f trace strategy)
    (hsuccess : ¬FailedOn f .tproxyPrerouting trace) : strategy = quicStrategy fw := by
  cases h with
  | pass hproxy hblock => simp [quicStrategy, hproxy, hblock]
  | tproxy hproxy _ => simp [quicStrategy, hproxy]
  | fallback _ hfailed => exact absurd hfailed hsuccess
  | drop hproxy hblock => simp [quicStrategy, hproxy, hblock]

theorem rules_section (d : Chain) :
    (host.applyAll (issued (setupFamily f fw addrs))).rules f d =
      host.rules f d ++ (natRules f fw addrs d ++ udpRules fw (quicStrategy fw) d) := by
  obtain ⟨u, hu⟩ : (setupFamily f fw addrs).Succeeds fun _ => Outcome.success :=
    succeeds_setupFamily
  have hruns := runs_run (fun _ => Outcome.success) (setupFamily f fw addrs)
  rw [hu] at hruns
  have hsuccess : ∀ e ∈ ((setupFamily f fw addrs).run fun _ => Outcome.success).1,
      e.2 = .success := fun _ he => mem_run he
  obtain ⟨strategy, hchosen, hadds⟩ : ∃ strategy, Chosen fw f _ strategy ∧
      host.Adds f (fun d => natRules f fw addrs d ++ udpRules fw strategy d) _ :=
    adds_setupFamily hruns
  have hrules := hadds.rules d
  rw [(Host.effective_of_success hsuccess).after_eq] at hrules
  rw [← hchosen.eq_quicStrategy (not_failedOn_of_success hsuccess)]
  exact hrules

theorem Host.tables_applyAll {cmds : List Cmd} (h : ∀ cmd ∈ cmds, cmd.program ≠ "nft") :
    (host.applyAll cmds).tables = host.tables := by
  rw [Host.applyAll_eq_after, Host.tables_after]
  simpa using h

theorem Host.part_applyAll {cmds : List Cmd} (h : ∀ cmd ∈ cmds, cmd.family ≠ f) :
    (host.applyAll cmds).part f = host.part f := by
  rw [Host.applyAll_eq_after, Host.part_after]
  simpa using h

theorem Host.forwarding_applyAll {cmds : List Cmd} (h : ∀ cmd ∈ cmds, cmd.program ≠ "sysctl") :
    (host.applyAll cmds).forwarding = host.forwarding := by
  rw [Host.applyAll_eq_after, Host.forwarding_after]
  simpa using h

theorem ofSection_issued : ∀ cmd ∈ issued (setupFamily f fw addrs), OfSection f cmd := by
  intro cmd hcmd
  obtain ⟨e, he, rfl⟩ := List.mem_map.mp hcmd
  exact issues_setupFamily _ _ (runs_run _ _) e he

theorem program_routing :
    ∀ cmd ∈ if fw.proxyUdp then routingCmds .ip ++ routingCmds .ip6 else [], cmd.program = "ip" := by
  split_ifs <;> simp [routingCmds, Cmd.program]

/-- All rules of a family are there, and the family is forwarded. -/
theorem installed_of_effective (hruns : (setup fw addrs).Runs trace result)
    (heffective : host.Effective trace) (f : NftFamily) :
    (host.after trace).forwarding f = true ∧ ∀ d, (host.after trace).rules f d =
      natRules f fw addrs d ++ udpRules fw (quicStrategy fw) d := by
  let ready := host.applyAll
    [.deleteTable .ip, .deleteTable .ip6, .setForwarding .ip true, .setForwarding .ip6 true]
  let section4 := issued (setupFamily .ip fw addrs)
  let section6 := issued (setupFamily .ip6 fw addrs)
  have hafter : host.after trace = ((ready.applyAll section4).applyAll section6).applyAll
      (if fw.proxyUdp then routingCmds .ip ++ routingCmds .ip6 else []) := by
    rw [heffective.after_eq_issued insensitive_setup hruns, issued_setup, Host.applyAll_append,
      Host.applyAll_append, Host.applyAll_append]
  have hready : ∀ d, ready.rules f d = [] := by
    intro d
    cases f <;> rfl
  have hforwarding : ready.forwarding f = true := by cases f <;> rfl
  have hprogram : ∀ g, ∀ cmd ∈ issued (setupFamily g fw addrs), cmd.program ≠ "sysctl" :=
    fun g cmd hcmd => by simp [(ofSection_issued cmd hcmd).program]
  rw [hafter]
  constructor
  · rw [Host.forwarding_applyAll fun cmd hcmd => by simp [program_routing cmd hcmd],
      Host.forwarding_applyAll (hprogram .ip6), Host.forwarding_applyAll (hprogram .ip)]
    exact hforwarding
  · intro d
    rw [Host.rules_congr (congrFun
      (Host.tables_applyAll fun cmd hcmd => by simp [program_routing cmd hcmd]) f)]
    cases f with
    | ip =>
      -- the section for IPv6 acts on the other part
      have hpart : ((ready.applyAll section4).applyAll section6).part .ip =
          (ready.applyAll section4).part .ip :=
        Host.part_applyAll fun cmd hcmd => by simp [(ofSection_issued cmd hcmd).family]
      rw [Host.rules_congr (congrArg Prod.fst hpart), rules_section, hready]
      rfl
    | ip6 =>
      have hpart : (ready.applyAll section4).part .ip6 = ready.part .ip6 :=
        Host.part_applyAll fun cmd hcmd => by simp [(ofSection_issued cmd hcmd).family]
      have htable : (ready.applyAll section4).tables .ip6 = ready.tables .ip6 :=
        congrArg Prod.fst hpart
      rw [rules_section, Host.rules_congr htable, hready]
      rfl

end Installed

structure LanArrival (fw : FirewallConfig) (p : Packet) : Prop where
  iif : p.iif = some fw.interface
  mark : p.mark = 0
  translation : p.translation = none
  socket : p.socket = none

/-- The packet is redirected to the listener, or goes to its port on the gateway anyway. -/
def Packet.ToListener (q : Packet) (net : Network) (fw : FirewallConfig) : Prop :=
  q.translation = some (.redirect fw.proxyPort) ∨ net.isLocal q.dst = true ∧ q.dport = fw.proxyPort

def Packet.dnatTo (p : Packet) (target : IpAddr × UInt16) : Packet :=
  { p with dst := target.1, dport := target.2, translation := some (.dnat target.1 target.2) }

/-- DNS of a family goes to its target, and only DNS does. -/
structure NftWins (host : Host) (net : Network) (fw : FirewallConfig) (f : NftFamily)
    (target : IpAddr × UInt16) : Prop where
  dns : ∀ p, LanArrival fw p → .of p.dst = f → p.dport = 53 → p.proto = .tcp ∨ p.proto = .udp →
    host.hook net .prerouting p = some (p.dnatTo target) ∧
      ¬(p.dnatTo target).ToListener net fw ∧ host.verdict net p ≠ .dropped ∧
        ∀ port, host.verdict net p ≠ .socket port
  other : ∀ p, LanArrival fw p → .of p.dst = f → p.dport ≠ 53 → ∀ q,
    host.hook net .prerouting p = some q → q.translation ≠ some (.dnat target.1 target.2)

section Nft
variable {host : Host} {net : Network} {fw : FirewallConfig} {addrs : InterfaceAddrs}
  {f : NftFamily} {target : IpAddr × UInt16} {p : Packet}

theorem of_dnsTarget (h : dnsTarget f fw addrs = some target) : NftFamily.of target.1 = f := by
  cases f with
  | ip =>
    obtain ⟨_, _, rfl⟩ := Option.map_eq_some_iff.mp h
    rfl
  | ip6 =>
    obtain ⟨_, _, rfl⟩ := Option.map_eq_some_iff.mp h
    rfl

/-- Queries are no QUIC, whichever ports the rules for it are for. -/
theorem evalChain_udpRules_dns {rules : List Rule} (hrules : rules ⊆ tproxyRules fw)
    (hport : p.dport = 53) : evalChain (eval net) rules p = (true, p) := by
  rw [evalChain_of_subset_tproxyRules hrules, if_neg]
  rintro ⟨hmem, _⟩
  obtain ⟨port, hquic, heq⟩ := List.mem_map.mp (hrules hmem)
  obtain rfl : port = p.dport := by simpa [tproxyRule] using heq
  exact ne_of_mem_quicBlockPorts hquic hport

theorem evalChain_preroutingRules_dns (htarget : dnsTarget f fw addrs = some target)
    (hiif : p.iif = some fw.interface) (hport : p.dport = 53)
    (hproto : p.proto = .tcp ∨ p.proto = .udp) :
    evalChain (eval net) (preroutingRules f fw addrs) p = (true, p.dnatTo target) := by
  have hrules : preroutingRules f fw addrs = [] ++ [.iifname fw.interface, .udpDport 53,
      .dnatTo target.1 target.2] :: [.iifname fw.interface, .tcpDport 53,
        .dnatTo target.1 target.2] :: redirectRules fw [.iifname fw.interface]
          (sshBypass f addrs [.iifname fw.interface] ++
            [[.iifname fw.interface, .fibDaddrLocal, .ret]]) := by
    rw [preroutingRules, dnsRules, htarget]
    rfl
  rw [hrules, List.nil_append]
  rcases hproto with htcp | hudp
  · rw [evalChain_cons_of_passes, evalChain_cons_of_verdict]
    · simp [evalRule, eval, Packet.dnatTo, hiif, hport, htcp]
    · left
      simp [evalRule, eval, hiif, htcp]
  · rw [evalChain_cons_of_verdict]
    simp [evalRule, eval, Packet.dnatTo, hiif, hport, hudp]

theorem subset_udpRules : udpRules fw (quicStrategy fw) .tproxyPrerouting ⊆ tproxyRules fw := by
  unfold quicStrategy
  split_ifs <;> simp [udpRules, Host.only]

theorem udpRules_quicForward : udpRules fw (quicStrategy fw) .quicForward =
    if fw.proxyUdp then [] else quicForwardRules fw := by
  unfold quicStrategy
  cases hproxy : fw.proxyUdp with
  | true => simp [udpRules, Host.only]
  | false =>
    cases hblock : fw.blockQuic with
    | true => simp [udpRules, Host.only]
    | false => simp [udpRules, quicForwardRules, FirewallConfig.quicBlockPorts, hblock]

theorem evalChain_quicForwardRules (hiif : p.iif = some fw.interface) :
    evalChain (eval net) (quicForwardRules fw) p =
      if p.proto = .udp ∧ p.dport ∈ fw.quicBlockPorts then (false, p) else (true, p) := by
  have hrule : ∀ port, evalRule (eval net) (quicDropRule (.iifname fw.interface) port) p =
      if p.proto = .udp ∧ p.dport = port then .verdict false p else .skip p := by
    intro port
    rw [evalRule_quicDropRule (b := true) (by simp [eval, hiif])]
    simp
  split_ifs with hquic
  · apply evalChain_uniform
    · intro rule hmem
      obtain ⟨port, _, rfl⟩ := List.mem_map.mp hmem
      rw [Passes, hrule]
      split_ifs <;> simp
    · have hverdict : evalRule (eval net) (quicDropRule (.iifname fw.interface) p.dport) p =
          .verdict false p := by rw [hrule, if_pos ⟨hquic.1, rfl⟩]
      exact ⟨_, List.mem_map_of_mem hquic.2, not_passes_of_verdict hverdict⟩
  · apply evalChain_of_passes
    intro rule hmem
    obtain ⟨port, hport, rfl⟩ := List.mem_map.mp hmem
    left
    rw [hrule, if_neg]
    rintro ⟨hudp, rfl⟩
    exact hquic ⟨hudp, hport⟩

def NoDnat (rule : Rule) : Prop := ∀ e ∈ rule, ∀ ip port, e ≠ .dnatTo ip port

/-- The packet was sent to no address. -/
def Packet.Undirected (p : Packet) : Prop := ∀ ip port, p.translation ≠ some (.dnat ip port)

theorem undirected_eval {e : Expr} (he : ∀ ip port, e ≠ .dnatTo ip port) (hp : p.Undirected) :
    (eval net e p).packet.Undirected := by
  have hmatching : ∀ b : Bool, (matching b p).packet = p := by
    intro b
    cases b <;> rfl
  intro ip port
  cases e with
  | dnatTo ip' port' => exact absurd rfl (he ip' port')
  | redirectTo _ => simp [eval, Step.packet]
  | tproxyTo _ =>
    simp only [eval]
    split_ifs <;> exact hp ip port
  | markSet _ _ => exact hp ip port
  | ret => exact hp ip port
  | accept => exact hp ip port
  | drop => exact hp ip port
  | _ =>
    simp only [eval, hmatching]
    exact hp ip port

theorem noDnat_redirectRules {matched : Rule} {exemptions : List Rule} (hmatched : NoDnat matched)
    (hexempt : ∀ rule ∈ exemptions, NoDnat rule) :
    ∀ rule ∈ redirectRules fw matched exemptions, NoDnat rule := by
  have happend : ∀ rest : Rule, NoDnat rest → NoDnat (matched ++ rest) :=
    fun rest hrest => List.forall_mem_append.mpr ⟨hmatched, hrest⟩
  unfold redirectRules
  cases fw.ports with
  | none =>
    simp only [List.forall_mem_append, List.forall_mem_singleton]
    exact ⟨hexempt, happend _ (by simp [NoDnat])⟩
  | some ports =>
    simp only [List.forall_mem_map]
    exact fun port _ => happend _ (by simp [NoDnat])

variable (hrules : ∀ d, host.rules f d = natRules f fw addrs d ++ udpRules fw (quicStrategy fw) d)
include hrules

theorem rules_tproxyPrerouting : host.rules f .tproxyPrerouting ⊆ tproxyRules fw := by
  rw [hrules, natRules_tproxyPrerouting, List.nil_append]
  exact subset_udpRules

theorem rules_prerouting : host.rules f .prerouting = preroutingRules f fw addrs := by
  rw [hrules, natRules_prerouting]
  unfold quicStrategy
  split_ifs <;> simp [udpRules, Host.only]

theorem hook_prerouting_dns (htarget : dnsTarget f fw addrs = some target) (hp : LanArrival fw p)
    (hf : .of p.dst = f) (hport : p.dport = 53) (hproto : p.proto = .tcp ∨ p.proto = .udp) :
    host.hook net .prerouting p = some (p.dnatTo target) := by
  subst hf
  simp only [Host.hook, Chain.atHook_prerouting, List.map_cons, List.map_nil, evalHook_cons,
    evalChain_udpRules_dns (rules_tproxyPrerouting hrules) hport, rules_prerouting hrules,
    evalChain_preroutingRules_dns htarget hp.iif hport hproto]
  rfl

/-- A query behind its translation: it is for the gateway, or it is forwarded unless it looks
like QUIC now. -/
theorem route_dns (hforwarding : host.forwarding f = true)
    (htarget : dnsTarget f fw addrs = some target) (hp : LanArrival fw p) :
    host.route net (p.dnatTo target) = if net.isLocal target.1 = true then .local (p.dnatTo target)
      else if p.proto = .udp ∧ fw.proxyUdp = false ∧ target.2 ∈ fw.quicBlockPorts then .dropped
      else .forwarded (p.dnatTo target) := by
  have hroute : host.routesToTproxy net (p.dnatTo target) = false := by
    simp [Host.routesToTproxy, Packet.dnatTo, hp.mark, tproxyMark]
  have hdelivered : Host.isDelivered net (p.dnatTo target) = net.isLocal target.1 := rfl
  have hsocket : (p.dnatTo target).socket = none := hp.socket
  have hof : NftFamily.of (p.dnatTo target).dst = f := of_dnsTarget htarget
  have hforward : host.hook net .forward (p.dnatTo target) =
      if p.proto = .udp ∧ fw.proxyUdp = false ∧ target.2 ∈ fw.quicBlockPorts then none
      else some (p.dnatTo target) := by
    have hchain : host.rules f .quicForward = if fw.proxyUdp then [] else quicForwardRules fw := by
      rw [hrules, natRules_quicForward, List.nil_append, udpRules_quicForward]
    simp only [Host.hook, Chain.atHook_forward, List.map_cons, List.map_nil, evalHook_cons, hof,
      hchain]
    cases hproxy : fw.proxyUdp with
    | true => simp [evalChain, evalHook]
    | false =>
      have hiif : (p.dnatTo target).iif = some fw.interface := hp.iif
      rw [if_neg Bool.false_ne_true, evalChain_quicForwardRules hiif]
      by_cases hquic : p.proto = .udp ∧ target.2 ∈ fw.quicBlockPorts
      · have hlooks : (p.dnatTo target).proto = .udp ∧
            (p.dnatTo target).dport ∈ fw.quicBlockPorts := hquic
        rw [if_pos hlooks, if_pos ⟨hquic.1, rfl, hquic.2⟩]
      · have hlooks : ¬((p.dnatTo target).proto = .udp ∧
            (p.dnatTo target).dport ∈ fw.quicBlockPorts) := hquic
        rw [if_neg hlooks, if_neg fun h => hquic ⟨h.1, h.2.2⟩]
        rfl
  simp only [Host.route, hsocket, hdelivered, hroute, Bool.or_false, hof, hforwarding, if_true,
    hforward]
  split_ifs <;> rfl

theorem verdict_dns (hforwarding : host.forwarding f = true)
    (htarget : dnsTarget f fw addrs = some target) (hp : LanArrival fw p) (hf : .of p.dst = f)
    (hport : p.dport = 53) (hproto : p.proto = .tcp ∨ p.proto = .udp) :
    host.verdict net p = if net.isLocal target.1 = true then .local (p.dnatTo target)
      else if p.proto = .udp ∧ fw.proxyUdp = false ∧ target.2 ∈ fw.quicBlockPorts then .dropped
      else .forwarded (p.dnatTo target) := by
  unfold Host.verdict
  rw [hook_prerouting_dns hrules htarget hp hf hport hproto]
  exact route_dns hrules hforwarding htarget hp

/-- Rules without a target send no packet to one. -/
theorem other_translation (hp : LanArrival fw p) (hf : .of p.dst = f) (hport : p.dport ≠ 53)
    {q : Packet} (hq : host.hook net .prerouting p = some q) :
    q.translation ≠ some (.dnat target.1 target.2) := by
  subst hf
  obtain ⟨r, hr, hrport⟩ : ∃ r : Packet, evalChain (eval net)
      (host.rules (.of p.dst) .tproxyPrerouting) p = (true, r) ∧
        (r.dport = p.dport ∧ r.translation = p.translation) := by
    rw [evalChain_of_subset_tproxyRules (rules_tproxyPrerouting hrules)]
    split_ifs
    · exact ⟨_, rfl, rfl, rfl⟩
    · exact ⟨_, rfl, rfl, rfl⟩
  simp only [Host.hook, Chain.atHook_prerouting, List.map_cons, List.map_nil, evalHook_cons, hr,
    rules_prerouting hrules] at hq
  rw [preroutingRules, evalChain_append_of_passes (passes_dnsRules (hrport.1.symm ▸ hport))] at hq
  have hnone : r.Undirected := by simp [Packet.Undirected, hrport.2, hp.translation]
  have hrest : ∀ rule ∈ redirectRules fw [.iifname fw.interface]
      (sshBypass (.of p.dst) addrs [.iifname fw.interface] ++
        [[.iifname fw.interface, .fibDaddrLocal, .ret]]), NoDnat rule := by
    apply noDnat_redirectRules
    · simp [NoDnat]
    · unfold sshBypass
      cases interfaceIp (.of p.dst) addrs <;> simp [NoDnat]
  have hinv : (evalChain (eval net) (redirectRules fw [.iifname fw.interface]
      (sshBypass (.of p.dst) addrs [.iifname fw.interface] ++
        [[.iifname fw.interface, .fibDaddrLocal, .ret]])) r).2.Undirected :=
    evalChain_invariant (fun rule hrule e he _ => undirected_eval (hrest rule hrule e he)) hnone
  revert hq hinv
  rcases evalChain (eval net) _ r with ⟨accept, s⟩
  intro hq hinv
  cases accept with
  | true =>
    cases hq
    exact hinv _ _
  | false => cases hq

def query (fw : FirewallConfig) (proto : Proto) (dst : IpAddr) : Packet :=
  { proto, dst, dport := 53, iif := some fw.interface, oif := none, mark := 0, translation := none
    socket := none }

omit hrules in
theorem lanArrival_query (proto : Proto) (dst : IpAddr) :
    LanArrival fw (query fw proto dst) :=
  ⟨rfl, rfl, rfl, rfl⟩

/-- With nftables, DNS interception wins unless the target is the listener, or is forwarded to
with a port that looks like QUIC. -/
theorem nftWins_iff (hforwarding : host.forwarding f = true)
    (htarget : dnsTarget f fw addrs = some target) : NftWins host net fw f target ↔
      ¬(net.isLocal target.1 = true ∧ target.2 = fw.proxyPort) ∧
        (target.2 ∈ fw.quicBlockPorts → fw.proxyUdp = true ∨ net.isLocal target.1 = true) := by
  have hverdict : ∀ p, LanArrival fw p → .of p.dst = f → p.dport = 53 →
      p.proto = .tcp ∨ p.proto = .udp → host.verdict net p =
        if net.isLocal target.1 = true then .local (p.dnatTo target)
        else if p.proto = .udp ∧ fw.proxyUdp = false ∧ target.2 ∈ fw.quicBlockPorts then .dropped
        else .forwarded (p.dnatTo target) :=
    fun _ hp => verdict_dns hrules hforwarding htarget hp
  constructor
  · intro h
    obtain ⟨ip, hip⟩ : ∃ ip, NftFamily.of ip = f := ⟨_, of_repeatedOctet 0⟩
    obtain ⟨_, hlistener, hdropped, _⟩ :=
      h.dns (query fw .udp ip) (lanArrival_query _ _) hip rfl (.inr rfl)
    refine ⟨fun hlocal => hlistener (.inr hlocal), fun hquic => ?_⟩
    rw [hverdict _ (lanArrival_query _ _) hip rfl (.inr rfl)] at hdropped
    by_contra hnot
    obtain ⟨hproxy, hlocal⟩ := not_or.mp hnot
    rw [if_neg hlocal, if_pos ⟨rfl, by simpa using hproxy, hquic⟩] at hdropped
    exact hdropped rfl
  · rintro ⟨hlistener, hquic⟩
    constructor
    · intro p hp hf hport hproto
      refine ⟨hook_prerouting_dns hrules htarget hp hf hport hproto, ?_, ?_, ?_⟩
      · rintro (hredirect | hlocal)
        · cases hredirect
        · exact hlistener hlocal
      · rw [hverdict p hp hf hport hproto]
        split_ifs with hlocal hdrop
        · simp
        · rcases hquic hdrop.2.2 with hproxy | hlocal'
          · rw [hdrop.2.1] at hproxy
            cases hproxy
          · exact absurd hlocal' hlocal
        · simp
      · intro port
        rw [hverdict p hp hf hport hproto]
        split_ifs <;> simp
    · exact fun p hp hf hport q => other_translation hrules hp hf hport

end Nft

/-- The same for the anchor. -/
structure PfWins (fw : FirewallConfig) (addrs : InterfaceAddrs) (f : NftFamily)
    (target : IpAddr × UInt16) : Prop where
  dns : ∀ p : PfPacket, p.inbound = true → p.iface = fw.interface → .of p.dst = f → p.dport = 53 →
    p.proto = .tcp ∨ p.proto = .udp →
      pfTranslate (buildRules fw addrs) p = some target ∧ target ≠ (pfLoopback f, fw.proxyPort) ∧
        pfVerdict (buildRules fw addrs) p ≠ .block
  other : ∀ p : PfPacket, p.inbound = true → p.iface = fw.interface → .of p.dst = f →
    p.dport ≠ 53 → pfTranslate (buildRules fw addrs) p ≠ some target

/-- The LAN is on the loopback interface, and some query there is exempt. -/
def PfExemptsDns (fw : FirewallConfig) (f : NftFamily) : Prop :=
  fw.interface = "lo0" ∧ ∃ upstream, fw.upstreamAddr = some upstream ∧
    (fw.proxyPort = 53 ∨ upstream.port = 53 ∧ NftFamily.of upstream.ip = f)

section PfDnsRules
variable {fw : FirewallConfig} {addrs : InterfaceAddrs} {f : NftFamily}
  {target : IpAddr × UInt16} {p : PfPacket}

theorem pfVerdict_of_target (hin : p.inbound = true)
    (htarget : pfTranslate (buildRules fw addrs) p = some target) :
    pfVerdict (buildRules fw addrs) p = .block ↔
      p.iface = fw.interface ∧ p.proto = .udp ∧ target.2 ∈ fw.quicBlockPorts := by
  let sent : PfPacket := { p with dst := target.1, dport := target.2 }
  have hverdict : pfVerdict (buildRules fw addrs) p = pfFilter (buildRules fw addrs) sent := by
    rw [pfVerdict, htarget]
    rfl
  rw [hverdict]
  by_cases hquic : PfQuic fw sent
  · exact iff_of_true (pfFilter_of_quic hquic) hquic
  · refine iff_of_false ?_ hquic
    have hpass : pfFilter (buildRules fw addrs) sent = .pass := pfFilter_of_inbound hin hquic
    simp [hpass]

/-- With pf, DNS interception wins unless the target is the listener, or has a port that looks
like QUIC, or queries are exempt. -/
theorem pfWins_iff (htarget : dnsTarget f fw addrs = some target) : PfWins fw addrs f target ↔
    target ≠ (pfLoopback f, fw.proxyPort) ∧ target.2 ∉ fw.quicBlockPorts ∧ ¬PfExemptsDns fw f := by
  constructor
  · intro h
    obtain ⟨ip, hip⟩ : ∃ ip, NftFamily.of ip = f := ⟨_, of_repeatedOctet 0⟩
    obtain ⟨hsent, hlistener, hblock⟩ :=
      h.dns ⟨fw.interface, true, .udp, ip, 53⟩ rfl rfl hip rfl (.inr rfl)
    have htcp : ∀ ip, NftFamily.of ip = f →
        pfTranslate (buildRules fw addrs) ⟨fw.interface, true, .tcp, ip, 53⟩ = some target :=
      fun ip hip => (h.dns ⟨fw.interface, true, .tcp, ip, 53⟩ rfl rfl hip rfl (.inl rfl)).1
    refine ⟨hlistener, fun hquic => hblock ((pfVerdict_of_target rfl hsent).mpr ⟨rfl, rfl, hquic⟩), ?_⟩
    rintro ⟨hlo, upstream, hu, hproxy | ⟨hport, hof⟩⟩
    · have hexempt : PfExempt fw ⟨fw.interface, true, .tcp, ip, 53⟩ :=
        ⟨hlo, rfl, upstream, hu, .inr hproxy.symm⟩
      have hnone := htcp ip hip
      rw [pfTranslate_of_exempt hexempt] at hnone
      cases hnone
    · have hexempt : PfExempt fw ⟨fw.interface, true, .tcp, upstream.ip, 53⟩ :=
        ⟨hlo, rfl, upstream, hu, .inl ⟨rfl, hport.symm⟩⟩
      have hnone := htcp upstream.ip hof
      rw [pfTranslate_of_exempt hexempt] at hnone
      cases hnone
  · rintro ⟨hlistener, hquic, hexempts⟩
    constructor
    · intro p hin hiface hf hport hproto
      have hexempt : ¬PfExempt fw p := by
        rintro ⟨hlo, _, upstream, hu, ⟨hdst, hdport⟩ | hdport⟩
        · exact hexempts ⟨hiface.symm.trans hlo, upstream, hu,
            .inr ⟨hdport.symm.trans hport, by rw [← hdst, hf]⟩⟩
        · exact hexempts ⟨hiface.symm.trans hlo, upstream, hu, .inl (hdport.symm.trans hport)⟩
      have hsent : pfTranslate (buildRules fw addrs) p = some target := by
        rw [pfTranslate_of_dns hin hexempt ⟨hiface, hproto.symm, hport⟩ (by simp [hf, htarget]), hf,
          htarget]
      refine ⟨hsent, hlistener, ?_⟩
      rw [Ne, pfVerdict_of_target hin hsent]
      exact fun h => hquic h.2.2
    · intro p hin hiface hf hport hsent
      have hdns : ¬(PfDns fw p ∧ (dnsTarget (.of p.dst) fw addrs).isSome) := fun h => hport h.1.2.2
      rw [pfTranslate_buildRules hin, if_neg hdns, hf] at hsent
      split_ifs at hsent
      exact hlistener (Option.some.inj hsent).symm

end PfDnsRules

/-- DNS interception wins with both firewalls exactly if the port of the target has no rule
against QUIC, the target is not the listener, and pf exempts no query. -/
theorem dns_interception_wins_iff {fw : FirewallConfig} {addrs : InterfaceAddrs} {f : NftFamily}
    {target : IpAddr × UInt16} {host : Host} {net : Network} {trace : List (Cmd × Outcome)}
    {result : Except String Unit} (htarget : dnsTarget f fw addrs = some target)
    (hruns : (setup fw addrs).Runs trace result) (heffective : host.Effective trace) :
    NftWins (host.after trace) net fw f target ∧ PfWins fw addrs f target ↔
      target.2 ∉ fw.quicBlockPorts ∧ target ≠ (pfLoopback f, fw.proxyPort) ∧
        ¬(net.isLocal target.1 = true ∧ target.2 = fw.proxyPort) ∧ ¬PfExemptsDns fw f := by
  obtain ⟨hforwarding, hrules⟩ := installed_of_effective hruns heffective f
  rw [nftWins_iff hrules hforwarding htarget, pfWins_iff htarget]
  constructor
  · rintro ⟨⟨hlocal, _⟩, hlistener, hquic, hexempts⟩
    exact ⟨hquic, hlistener, hlocal, hexempts⟩
  · rintro ⟨hquic, hlistener, hlocal, hexempts⟩
    exact ⟨⟨hlocal, fun h => absurd h hquic⟩, hlistener, hquic, hexempts⟩

/-- Queries are answered on port 5353 of the gateway. -/
def sampleDns : Config := { sampleHttp with dnsListen := some (.v4 .unspecified 5353) }

theorem dns_interception_wins_iff_sample :
    NftWins (sampleHost.after (sampleTrace sampleDns)) sampleNetwork (.fromConfig sampleEnv sampleDns)
      .ip (.v4 (.new 192 168 1 1), 5353) ∧
    PfWins (.fromConfig sampleEnv sampleDns) sampleAddrs .ip (.v4 (.new 192 168 1 1), 5353) := by
  refine (dns_interception_wins_iff rfl (runs_sampleTrace sampleDns rfl)
    (effective_sampleTrace sampleHost sampleDns)).mpr ⟨by decide, by decide, by decide, ?_⟩
  rintro ⟨hlo, _⟩
  exact absurd hlo (by decide)

/-- The port of the DNS forwarder is also one that the proxy is for. -/
def sampleDnsPorts : Config := { sampleDns with ports := some ⟨[443, 5353]⟩ }

/-- The anchor sends a query to the forwarder and then blocks it. -/
theorem not_pfWins :
    dnsTarget .ip (.fromConfig sampleEnv sampleDnsPorts) sampleAddrs =
      some (.v4 (.new 192 168 1 1), 5353) ∧
    ¬PfWins (.fromConfig sampleEnv sampleDnsPorts) sampleAddrs .ip
      (.v4 (.new 192 168 1 1), 5353) := by
  refine ⟨rfl, fun h => ?_⟩
  obtain ⟨_, _, hblock⟩ := h.dns ⟨"eth0", true, .udp, .v4 (.new 198 51 100 7), 53⟩ rfl rfl rfl rfl
    (.inr rfl)
  exact hblock (by decide)

end TransProxy.Firewall
