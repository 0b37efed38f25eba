import TransProxy.Firewall.Progress
import TransProxy.Firewall.RuleEffects

/-!
# Traffic of the host itself

With local traffic, the TCP connections of the host go to the listener, up to those of the
proxy. The rules know these by their mark or by the address of the upstream proxy, and its
datagrams to a relay not at all.
-/
namespace TransProxy.Firewall
open Library Net PacketFilter

/-- An IPv4-mapped address is reached over IPv4. -/
def wireAddr : IpAddr → IpAddr
  | .v4 ip => .v4 ip
  | .v6 ip =>
    match Proxy.toIpv4Mapped ip with
    | some ip => .v4 ip
    | none => .v6 ip

theorem wireAddr_of_ip {ip : IpAddr} (h : NftFamily.of ip = .ip) : wireAddr ip = ip := by
  cases ip with
  | v4 ip => rfl
  | v6 ip => cases h

theorem of_wireAddr {ip : IpAddr} (h : wireAddr ip ≠ ip) : NftFamily.of (wireAddr ip) = .ip := by
  cases ip with
  | v4 ip => rfl
  | v6 ip =>
    cases hmapped : Proxy.toIpv4Mapped ip with
    | some ip => simp [wireAddr, hmapped, NftFamily.of]
    | none => simp [wireAddr, hmapped] at h

section
variable (fw : FirewallConfig) (addrs : InterfaceAddrs) (net : Network)
  (trace : List (Cmd × Outcome)) (relay : SocketAddr) (p : Packet)

def IsMarked : Prop := p.proto = .tcp ∧ fw.fwmark = some p.mark

def IsToUpstream : Prop :=
  p.proto = .tcp ∧ p.mark = 0 ∧
    ∃ upstream, fw.upstreamAddr = some upstream ∧ p.dst = wireAddr upstream.ip ∧
      p.dport = upstream.port

def IsToRelay : Prop :=
  p.proto = .udp ∧ p.mark = 0 ∧ fw.proxyUdp = true ∧ p.dst = wireAddr relay.ip ∧
    p.dport = relay.port

/-- Another connection over IPv4 that is to be redirected. -/
def IsOther : Prop :=
  p.proto = .tcp ∧ p.mark = 0 ∧ ¬IsToUpstream fw p ∧ NftFamily.of p.dst = .ip ∧
    net.isLocal p.dst = false ∧ ∀ ports, fw.ports = some ports → p.dport ∈ ports

/-- The proxy's own traffic leaves as it is, and the rest is redirected to the listener. -/
structure Host.Treats (host : Host) : Prop where
  own : IsMarked fw p ∨ IsToUpstream fw p ∨ IsToRelay fw relay p → host.Untouched net p
  other : IsOther fw net p → host.hook net .output p = some (redirected p fw.proxyPort)

/-- The mark has the bit of the TPROXY mark, and the routing for this one is there. -/
def MistakenForTproxy : Prop :=
  net.isLocal p.dst = false ∧ p.mark &&& tproxyMark = tproxyMark ∧
    (.ruleAdd (.of p.dst), .success) ∈ trace ∧ (.routeAdd (.of p.dst), .success) ∈ trace

/-- SSH to the address that the interface had. -/
def IsSshToInterface : Prop :=
  fw.ports = none ∧ interfaceIp (.of p.dst) addrs = some p.dst ∧ p.dport = 22

/-- The redirects are for this packet, unless it is exempt for its mark or its destination. -/
def IsSelected : Prop :=
  net.isLocal p.dst = false ∧ (∀ ports, fw.ports = some ports → p.dport ∈ ports) ∧
    ¬IsSshToInterface fw addrs p

/-- The exemption is for an IPv6 address, while the packet goes to the IPv4 address in it. -/
def MissedByExemption : Prop :=
  (∀ upstream, fw.upstreamAddr = some upstream → p.dst ≠ upstream.ip) ∧ fw.fwmark ≠ some 0 ∧
    IsSelected fw addrs net p

/-- The datagram looks like QUIC of the host. -/
def MistakenForQuic : Prop :=
  p.oif = some fw.interface ∧
    (.addRule (.of p.dst) .quicOutput (quicDropRule (.oifname fw.interface) p.dport), .success) ∈
      trace

end

section
variable {fw : FirewallConfig} {addrs : InterfaceAddrs} {host : Host} {net : Network} {p : Packet}
  {f : NftFamily} {rules : List Rule} {trace : List (Cmd × Outcome)} {fwmark : UInt32}

/-- The mark is looked at first. -/
theorem evalChain_output_marked (hrules : rules <+: outputRules f fw addrs fwmark)
    (hmark : p.mark = fwmark) : evalChain (eval net) rules p = (true, p) := by
  have hverdict : evalRule (eval net) [.mark fwmark, .ret] p = .verdict true p := by
    rw [evalRule_markRule, if_pos hmark]
  have hinit : rules <+: [] ++ [.mark fwmark, .ret] :: _ := hrules
  exact evalChain_of_prefix (by simp) hverdict hinit

/-- The address of the upstream proxy comes next. -/
theorem evalChain_output_upstream (hrules : rules <+: outputRules (.of p.dst) fw addrs fwmark)
    (htcp : p.proto = .tcp) {upstream : SocketAddr} (haddr : fw.upstreamAddr = some upstream)
    (hdst : p.dst = upstream.ip) (hdport : p.dport = upstream.port) :
    evalChain (eval net) rules p = (true, p) := by
  have hverdict : evalRule (eval net) [.daddr upstream.ip, .tcpDport upstream.port, .ret] p =
      .verdict true p := by
    rw [evalRule_exemption, if_pos ⟨hdst, htcp, hdport⟩]
  have hinit : rules <+: [[.mark fwmark, .ret]] ++
      [.daddr upstream.ip, .tcpDport upstream.port, .ret] ::
        ([[.fibDaddrLocal, .ret]] ++ redirectRules fw [] (sshBypass (.of p.dst) addrs [])) := by
    simpa [outputRules, haddr, upstreamOutputExclusion, hdst] using hrules
  exact evalChain_of_prefix (List.forall_mem_singleton.mpr (keeps_markRule fwmark)) hverdict hinit

/-- Only TCP is redirected. -/
theorem evalChain_output_of_ne_tcp (hrules : rules <+: outputRules f fw addrs fwmark)
    (htcp : p.proto ≠ .tcp) : evalChain (eval net) rules p = (true, p) := by
  apply evalChain_of_keeps
  intro rule hrule
  rcases List.mem_append.mp (hrules.subset hrule) with hexempt | hredirect
  · exact keeps_outputExemptions fwmark rule hexempt
  · exact keeps_redirectRules htcp (.inr rfl)
      (fun rule hrule => .inl (passes_sshBypass htcp (.inr rfl) rule hrule)) rule hredirect

theorem evalChain_output_of_not_selected (htcp : p.proto = .tcp)
    (h : ¬IsSelected fw addrs net p) :
    evalChain (eval net) (outputRules (.of p.dst) fw addrs fwmark) p = (true, p) := by
  by_cases hlocal : net.isLocal p.dst = true
  · have hverdict : evalRule (eval net) [.fibDaddrLocal, .ret] p = .verdict true p := by
      rw [evalRule_fibDaddrLocal, if_pos hlocal]
    have hsplit : outputRules (.of p.dst) fw addrs fwmark <+:
        ([[.mark fwmark, .ret]] ++
            (fw.upstreamAddr.bind (upstreamOutputExclusion (.of p.dst))).toList) ++
          [.fibDaddrLocal, .ret] :: redirectRules fw [] (sshBypass (.of p.dst) addrs []) := by
      simp [outputRules]
    refine evalChain_of_prefix (fun rule hrule => ?_) hverdict hsplit
    exact keeps_outputExemptions fwmark rule (List.mem_append_left _ hrule)
  · rw [outputRules_eq]
    apply evalChain_append_of_keeps (keeps_outputExemptions fwmark)
    cases hports : fw.ports with
    | some ports =>
      have hnot : p.dport ∉ ports := by
        intro hmem
        refine h ⟨by simpa using hlocal, by simpa [hports] using hmem, fun hssh => ?_⟩
        simp [hssh.1] at hports
      rw [evalChain_redirectPorts htcp rfl hports, if_neg hnot]
    | none =>
      have hssh : IsSshToInterface fw addrs p := by
        by_contra hnot
        exact h ⟨by simpa using hlocal, by simp [hports], hnot⟩
      obtain ⟨_, hip, hdport⟩ := hssh
      have hverdict : evalRule (eval net) [.daddr p.dst, .tcpDport 22, .ret] p =
          .verdict true p := by
        rw [evalRule_exemption, if_pos ⟨rfl, htcp, hdport⟩]
      simp only [redirectRules, hports, sshBypass, hip]
      exact evalChain_cons_of_verdict hverdict

/-- What is neither marked nor for the upstream proxy comes to the redirects. -/
theorem evalChain_output_of_selected (htcp : p.proto = .tcp) (hmark : p.mark ≠ fwmark)
    (hupstream : ∀ upstream, fw.upstreamAddr = some upstream →
      ¬(p.dst = upstream.ip ∧ p.dport = upstream.port))
    (h : IsSelected fw addrs net p) :
    evalChain (eval net) (outputRules (.of p.dst) fw addrs fwmark) p =
      (true, redirected p fw.proxyPort) := by
  obtain ⟨hlocal, hports, hssh⟩ := h
  have hexempt : ∀ rule ∈ outputExemptions (.of p.dst) fw fwmark, Passes (eval net) rule p := by
    simp only [outputExemptions, List.forall_mem_append, List.forall_mem_singleton]
    refine ⟨⟨?_, ?_⟩, ?_⟩
    · rw [Passes, evalRule_markRule, if_neg hmark]
      exact .inl rfl
    · intro rule hrule
      obtain ⟨upstream, haddr, _, rfl⟩ := mem_upstreamExclusion hrule
      rw [Passes, evalRule_exemption, if_neg]
      · exact .inl rfl
      · rintro ⟨hdst, _, hdport⟩
        exact hupstream upstream haddr ⟨hdst, hdport⟩
    · rw [Passes, evalRule_fibDaddrLocal, if_neg (by simp [hlocal])]
      exact .inl rfl
  rw [outputRules_eq, evalChain_append_of_passes hexempt]
  cases hlist : fw.ports with
  | some ports => rw [evalChain_redirectPorts htcp rfl hlist, if_pos (hports ports hlist)]
  | none =>
    apply evalChain_redirectAll htcp rfl hlist
    intro rule hrule
    unfold sshBypass at hrule
    cases hip : interfaceIp (.of p.dst) addrs with
    | none => simp [hip] at hrule
    | some ip =>
      rw [hip] at hrule
      rw [List.mem_singleton.mp hrule, List.nil_append, Passes, evalRule_exemption, if_neg]
      · exact .inl rfl
      · rintro ⟨rfl, _, hdport⟩
        exact hssh ⟨hlist, hip, hdport⟩

theorem exists_port_of_mem_quicOutputRules {rule : Rule} (h : rule ∈ quicOutputRules fw) :
    ∃ port, rule = quicDropRule (.oifname fw.interface) port := by
  unfold quicOutputRules at h
  cases hmark : fw.fwmark with
  | none => simp [hmark] at h
  | some fwmark =>
    rw [hmark] at h
    obtain ⟨port, _, rfl⟩ := List.mem_map.mp h
    exact ⟨port, rfl⟩

/-- A datagram is dropped by the rule for its port, if it is there. -/
def DroppedBy (fw : FirewallConfig) (rules : List Rule) (p : Packet) : Prop :=
  p.oif = some fw.interface ∧ p.proto = .udp ∧
    quicDropRule (.oifname fw.interface) p.dport ∈ rules

instance : Decidable (DroppedBy fw rules p) := inferInstanceAs (Decidable (_ ∧ _ ∧ _))

theorem evalChain_quicOutput (hrules : rules ⊆ quicOutputRules fw) :
    evalChain (eval net) rules p = (!decide (DroppedBy fw rules p), p) := by
  have hdir : eval net (.oifname fw.interface) p =
      matching (decide (p.oif = some fw.interface)) p := rfl
  by_cases h : DroppedBy fw rules p
  · rw [decide_eq_true h, Bool.not_true]
    apply evalChain_uniform
    · intro rule hrule
      obtain ⟨port, rfl⟩ := exists_port_of_mem_quicOutputRules (hrules hrule)
      rw [Passes, evalRule_quicDropRule hdir]
      split_ifs <;> simp
    · refine ⟨_, h.2.2, ?_⟩
      rw [passes_quicDropRule_iff hdir, not_not]
      exact ⟨by simpa using h.1, h.2.1, rfl⟩
  · rw [decide_eq_false h, Bool.not_false]
    apply evalChain_of_passes
    intro rule hrule
    obtain ⟨port, rfl⟩ := exists_port_of_mem_quicOutputRules (hrules hrule)
    rw [passes_quicDropRule_iff hdir]
    rintro ⟨hoif, hudp, rfl⟩
    exact h ⟨by simpa using hoif, hudp, hrule⟩

/-- What the output chain accepts comes to the rules against QUIC. -/
theorem hook_output (hprogress : Progress fw addrs trace host) {q : Packet}
    (h : evalChain (eval net) (host.rules (.of p.dst) .output) p = (true, q)) :
    host.hook net .output p =
      if DroppedBy fw (host.rules (.of p.dst) .quicOutput) q then none else some q := by
  simp only [Host.hook, Chain.atHook_output, List.map_cons, List.map_nil]
  rw [evalHook_cons, h]
  dsimp only
  rw [evalHook_cons, evalChain_quicOutput (hprogress.rules _ .quicOutput).subset]
  by_cases hdrop : DroppedBy fw (host.rules (.of p.dst) .quicOutput) q
  · simp [hdrop]
  · simp [hdrop, evalHook]

theorem hook_output_of_tcp (hprogress : Progress fw addrs trace host) {q : Packet}
    (h : evalChain (eval net) (host.rules (.of p.dst) .output) p = (true, q))
    (htcp : q.proto = .tcp) : host.hook net .output p = some q := by
  rw [hook_output hprogress h, if_neg]
  rintro ⟨_, hudp, _⟩
  rw [htcp] at hudp
  cases hudp

/-- What the setup has left for the packets of the host. -/
structure ForOutput (fw : FirewallConfig) (addrs : InterfaceAddrs) (fwmark : UInt32)
    (trace : List (Cmd × Outcome)) (host : Host) : Prop where
  progress : Progress fw addrs trace host
  output : ∀ f, host.rules f .output <+: outputRules f fw addrs fwmark
  output_ip : host.rules .ip .output = outputRules .ip fw addrs fwmark
  routes : ∀ net p, host.routesToTproxy net p = true ↔ MistakenForTproxy net trace p

theorem forOutput_of_runs (hclean : host.Clean) (hruns : (setup fw addrs).Runs trace (.ok ()))
    (hmark : fw.fwmark = some fwmark) : ForOutput fw addrs fwmark trace (host.after trace) where
  progress := progress_of_runs hclean hruns
  output f := by
    have hrules := (progress_of_runs hclean hruns).rules f .output
    simpa [sectionRules, hmark] using hrules
  output_ip := by
    rw [(output_rules_ip hclean hruns).1, sectionRules, hmark]
  routes net p := by
    obtain ⟨hrules, hroute⟩ := routing_of_runs hclean hruns (.of p.dst)
    rw [MistakenForTproxy, ← hrules, ← hroute, Host.routesToTproxy]
    simp only [Bool.and_eq_true, Bool.not_eq_true', decide_eq_true_eq, beq_iff_eq]
    tauto

/-- A packet without a mark is on no route of the TPROXY table. -/
theorem not_mistakenForTproxy (hmark : p.mark = 0) : ¬MistakenForTproxy net trace p := by
  rintro ⟨_, hbit, _⟩
  rw [hmark] at hbit
  exact absurd hbit (by decide)

theorem mark_ne_iff (hmark : fw.fwmark = some fwmark) (hzero : p.mark = 0) :
    p.mark ≠ fwmark ↔ fw.fwmark ≠ some 0 := by
  rw [hmark, hzero, Ne, Ne, Option.some.injEq, eq_comm]

theorem redirected_ne (hfresh : p.translation = none) {port : UInt16} : redirected p port ≠ p := by
  intro heq
  have htranslation := congrArg Packet.translation heq
  rw [hfresh] at htranslation
  cases htranslation

namespace ForOutput
variable (hout : ForOutput fw addrs fwmark trace host)
include hout

theorem untouched_iff : host.Untouched net p ↔
    host.hook net .output p = some p ∧ ¬MistakenForTproxy net trace p := by
  rw [← hout.routes, Bool.not_eq_true]
  exact ⟨fun h => ⟨h.hook, h.route⟩, fun h => ⟨h.1, h.2⟩⟩

theorem untouched_iff_of_marked (htcp : p.proto = .tcp) (hmark : p.mark = fwmark) :
    host.Untouched net p ↔ ¬MistakenForTproxy net trace p := by
  rw [hout.untouched_iff]
  exact and_iff_right (hook_output_of_tcp hout.progress
    (evalChain_output_marked (hout.output _) hmark) htcp)

/-- Over IPv4, an unmarked connection that no exemption is for is redirected if it is
selected, and left alone otherwise. -/
theorem hook_output_ip (net : Network) (htcp : p.proto = .tcp) (hip : NftFamily.of p.dst = .ip)
    (hupstream : ∀ upstream, fw.upstreamAddr = some upstream →
      ¬(p.dst = upstream.ip ∧ p.dport = upstream.port)) :
    (p.mark ≠ fwmark ∧ IsSelected fw addrs net p →
      host.hook net .output p = some (redirected p fw.proxyPort)) ∧
    (¬(p.mark ≠ fwmark ∧ IsSelected fw addrs net p) → host.hook net .output p = some p) := by
  have hrules : host.rules (.of p.dst) .output = outputRules (.of p.dst) fw addrs fwmark := by
    rw [hip]
    exact hout.output_ip
  constructor
  · rintro ⟨hmark, hselected⟩
    refine hook_output_of_tcp hout.progress ?_ htcp
    rw [hrules]
    exact evalChain_output_of_selected htcp hmark hupstream hselected
  · intro hnot
    refine hook_output_of_tcp hout.progress ?_ htcp
    by_cases hmark : p.mark = fwmark
    · exact evalChain_output_marked (hout.output _) hmark
    · rw [hrules]
      exact evalChain_output_of_not_selected htcp fun hselected => hnot ⟨hmark, hselected⟩

theorem untouched_iff_of_toUpstream (hfresh : p.translation = none) (hmark : fw.fwmark = some fwmark)
    (h : IsToUpstream fw p) : host.Untouched net p ↔ ¬MissedByExemption fw addrs net p := by
  obtain ⟨htcp, hzero, upstream, haddr, hdst, hdport⟩ := h
  rw [hout.untouched_iff, and_iff_left (not_mistakenForTproxy hzero)]
  by_cases hexempt : p.dst = upstream.ip
  · refine iff_of_true (hook_output_of_tcp hout.progress ?_ htcp)
      fun hmissed => hmissed.1 upstream haddr hexempt
    exact evalChain_output_upstream (hout.output (.of p.dst)) htcp haddr hexempt hdport
  · -- the packet goes to the IPv4 address in an IPv6 address, and the rules for IPv4 have no
    -- exemption
    have hip : NftFamily.of p.dst = .ip := by
      rw [hdst]
      exact of_wireAddr fun heq => hexempt (hdst.trans heq)
    have hnone : ∀ upstream, fw.upstreamAddr = some upstream → p.dst ≠ upstream.ip := by
      intro upstream' haddr'
      obtain rfl : upstream = upstream' := Option.some.inj (haddr.symm.trans haddr')
      exact hexempt
    obtain ⟨hselected, hnot⟩ := hout.hook_output_ip net htcp hip
      fun upstream haddr hboth => hnone upstream haddr hboth.1
    rw [MissedByExemption, and_iff_right hnone, ← mark_ne_iff hmark hzero]
    by_cases hall : p.mark ≠ fwmark ∧ IsSelected fw addrs net p
    · rw [hselected hall]
      exact iff_of_false (fun heq => redirected_ne hfresh (Option.some.inj heq)) (not_not.mpr hall)
    · exact iff_of_true (hnot hall) hall

theorem untouched_iff_of_toRelay {relay : SocketAddr} (h : IsToRelay fw relay p) :
    host.Untouched net p ↔ ¬MistakenForQuic fw trace p := by
  obtain ⟨hudp, hzero, _⟩ := h
  have htcp : p.proto ≠ .tcp := by simp [hudp]
  rw [hout.untouched_iff, and_iff_left (not_mistakenForTproxy hzero),
    hook_output hout.progress (evalChain_output_of_ne_tcp (hout.output _) htcp), MistakenForQuic,
    ← hout.progress.issued]
  split_ifs with hdrop
  · exact iff_of_false (by simp) (not_not.mpr ⟨hdrop.1, hdrop.2.2⟩)
  · exact iff_of_true rfl fun hquic => hdrop ⟨hquic.1, hudp, hquic.2⟩

theorem redirected_iff_of_other (hfresh : p.translation = none) (hmark : fw.fwmark = some fwmark)
    (h : IsOther fw net p) : host.hook net .output p = some (redirected p fw.proxyPort) ↔
      fw.fwmark ≠ some 0 ∧ ¬IsSshToInterface fw addrs p := by
  obtain ⟨htcp, hzero, hother, hip, hlocal, hports⟩ := h
  have hupstream : ∀ upstream, fw.upstreamAddr = some upstream →
      ¬(p.dst = upstream.ip ∧ p.dport = upstream.port) := by
    rintro upstream haddr ⟨hdst, hdport⟩
    refine hother ⟨htcp, hzero, upstream, haddr, ?_, hdport⟩
    rw [hdst] at hip ⊢
    exact (wireAddr_of_ip hip).symm
  have hselected_iff : IsSelected fw addrs net p ↔ ¬IsSshToInterface fw addrs p := by
    rw [IsSelected, and_iff_right hlocal, and_iff_right hports]
  obtain ⟨hselected, hnot⟩ := hout.hook_output_ip net htcp hip hupstream
  rw [← mark_ne_iff hmark hzero, ← hselected_iff]
  by_cases hall : p.mark ≠ fwmark ∧ IsSelected fw addrs net p
  · exact iff_of_true (hselected hall) hall
  · rw [hnot hall]
    exact iff_of_false (fun heq => redirected_ne hfresh (Option.some.inj heq).symm) hall

end ForOutput
end

/-- After a setup that succeeds, the rules treat the packets of the host as they should exactly
if no mark of the proxy is mistaken for that of TPROXY, the exemption for the upstream proxy
is not missed by a connection to it, no datagram to a relay is mistaken for QUIC, and the
mark is not 0, nor SSH to the address of the interface among the other connections. -/
theorem treats_iff {env : Config.Env} {config : Config} {addrs : InterfaceAddrs} {host : Host}
    {trace : List (Cmd × Outcome)} {net : Network} {relay : SocketAddr} {p : Packet}
    (hlocal : config.localTraffic = true) (hclean : host.Clean)
    (hruns : (setup (.fromConfig env config) addrs).Runs trace (.ok ()))
    (hfresh : p.translation = none) :
    (host.after trace).Treats (.fromConfig env config) net relay p ↔
      (IsMarked (.fromConfig env config) p → ¬MistakenForTproxy net trace p) ∧
      (IsToUpstream (.fromConfig env config) p →
        ¬MissedByExemption (.fromConfig env config) addrs net p) ∧
      (IsToRelay (.fromConfig env config) relay p →
        ¬MistakenForQuic (.fromConfig env config) trace p) ∧
      (IsOther (.fromConfig env config) net p →
        config.fwmark ≠ 0 ∧ ¬IsSshToInterface (.fromConfig env config) addrs p) := by
  have hmark : (FirewallConfig.fromConfig env config).fwmark = some config.fwmark := by
    simp [FirewallConfig.fromConfig, hlocal]
  have hout := forOutput_of_runs hclean hruns hmark
  have hmarked : IsMarked (.fromConfig env config) p →
      ((host.after trace).Untouched net p ↔ ¬MistakenForTproxy net trace p) := by
    rintro ⟨htcp, heq⟩
    exact hout.untouched_iff_of_marked htcp (Option.some.inj (heq.symm.trans hmark))
  have hzero : (FirewallConfig.fromConfig env config).fwmark ≠ some 0 ↔ config.fwmark ≠ 0 := by
    rw [hmark, Ne, Option.some.injEq]
  constructor
  · rintro ⟨hown, hother⟩
    refine ⟨fun h => (hmarked h).mp (hown (.inl h)), fun h => ?_, fun h => ?_, fun h => ?_⟩
    · exact (hout.untouched_iff_of_toUpstream hfresh hmark h).mp (hown (.inr (.inl h)))
    · exact (hout.untouched_iff_of_toRelay h).mp (hown (.inr (.inr h)))
    · rw [← hzero]
      exact (hout.redirected_iff_of_other hfresh hmark h).mp (hother h)
  · rintro ⟨htproxy, hupstream, hrelay, hother⟩
    constructor
    · rintro (h | h | h)
      · exact (hmarked h).mpr (htproxy h)
      · exact (hout.untouched_iff_of_toUpstream hfresh hmark h).mpr (hupstream h)
      · exact (hout.untouched_iff_of_toRelay h).mpr (hrelay h)
    · intro h
      have hcond := hother h
      rw [← hzero] at hcond
      exact (hout.redirected_iff_of_other hfresh hmark h).mpr hcond

def sampleLocal (fwmark : UInt32) : Config := { sampleSocks5 with localTraffic := true, fwmark }

/-- A packet of the host on its way to the upstream proxy or to a server. -/
def sampleOutgoing (proto : Proto) (ip : Ipv4Addr) (port : UInt16) (mark : UInt32) : Packet :=
  { proto, dst := .v4 ip, dport := port, iif := none, oif := some "eth0", mark
    translation := none, socket := none }

def sampleRelay : SocketAddr := .v4 (.new 192 0 2 1) 443

/-- With the default mark, the proxy's connection leaves and that of another program is
redirected. -/
theorem treats_iff_sample :
    (sampleHost.after (sampleTrace (sampleLocal 1))).Treats (.fromConfig sampleEnv (sampleLocal 1))
      sampleNetwork sampleRelay (sampleOutgoing .tcp (.new 192 0 2 1) 1080 1) ∧
    (sampleHost.after (sampleTrace (sampleLocal 1))).Treats (.fromConfig sampleEnv (sampleLocal 1))
      sampleNetwork sampleRelay (sampleOutgoing .tcp (.new 198 51 100 7) 443 0) := by
  have hruns := runs_sampleTrace (sampleLocal 1) rfl
  constructor
  · refine (treats_iff rfl clean_sampleHost hruns rfl).mpr ⟨fun _ => ?_, ?_, ?_, ?_⟩
    · rintro ⟨_, hbit, _⟩
      exact absurd hbit (by decide)
    · rintro ⟨_, hzero, _⟩
      exact absurd hzero (by decide)
    · rintro ⟨hudp, _⟩
      cases hudp
    · rintro ⟨_, hzero, _⟩
      exact absurd hzero (by decide)
  · refine (treats_iff rfl clean_sampleHost hruns rfl).mpr ⟨?_, ?_, ?_, fun _ => ⟨by decide, ?_⟩⟩
    · rintro ⟨_, hmark⟩
      exact absurd hmark (by decide)
    · rintro ⟨_, _, upstream, haddr, hdst, _⟩
      cases haddr
      exact absurd hdst (by decide)
    · rintro ⟨hudp, _⟩
      cases hudp
    · rintro ⟨_, _, hssh⟩
      exact absurd hssh (by decide)

/-- A mark with the bit of the TPROXY mark sends the proxy's connections to the TPROXY table,
and a relay at port 443 on the side of the LAN is not reached. -/
theorem not_treats :
    ((setup (.fromConfig sampleEnv (sampleLocal 0x40000000)) sampleAddrs).Runs
        (sampleTrace (sampleLocal 0x40000000)) (.ok ()) ∧
      IsMarked (.fromConfig sampleEnv (sampleLocal 0x40000000))
        (sampleOutgoing .tcp (.new 192 0 2 1) 1080 0x40000000) ∧
      ¬(sampleHost.after (sampleTrace (sampleLocal 0x40000000))).Treats
        (.fromConfig sampleEnv (sampleLocal 0x40000000)) sampleNetwork sampleRelay
        (sampleOutgoing .tcp (.new 192 0 2 1) 1080 0x40000000)) ∧
    ((setup (.fromConfig sampleEnv (sampleLocal 1)) sampleAddrs).Runs
        (sampleTrace (sampleLocal 1)) (.ok ()) ∧
      IsToRelay (.fromConfig sampleEnv (sampleLocal 1)) sampleRelay
        (sampleOutgoing .udp (.new 192 0 2 1) 443 0) ∧
      ¬(sampleHost.after (sampleTrace (sampleLocal 1))).Treats
        (.fromConfig sampleEnv (sampleLocal 1)) sampleNetwork sampleRelay
        (sampleOutgoing .udp (.new 192 0 2 1) 443 0)) := by
  have hmarked : IsMarked (.fromConfig sampleEnv (sampleLocal 0x40000000))
      (sampleOutgoing .tcp (.new 192 0 2 1) 1080 0x40000000) := ⟨rfl, rfl⟩
  have hrelay : IsToRelay (.fromConfig sampleEnv (sampleLocal 1)) sampleRelay
      (sampleOutgoing .udp (.new 192 0 2 1) 443 0) := ⟨rfl, rfl, rfl, rfl, rfl⟩
  refine ⟨⟨runs_sampleTrace _ rfl, hmarked, fun h => ?_⟩,
    ⟨runs_sampleTrace _ rfl, hrelay, fun h => ?_⟩⟩
  · have hroute := (h.own (.inl hmarked)).route
    exact absurd hroute (by decide)
  · have hhook := (h.own (.inr (.inr hrelay))).hook
    exact absurd hhook (by decide)

end TransProxy.Firewall
