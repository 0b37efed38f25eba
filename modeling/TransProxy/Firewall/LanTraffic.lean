import TransProxy.Firewall.Addresses
import TransProxy.Firewall.DnsInterception

/-!
# Everything that comes from the LAN

What the gateway is for, as one rule about each packet, and that the chains of a setup do just
that.
-/
namespace TransProxy.Firewall
open Library Net PacketFilter Config

/-- With a list of ports just these are to be proxied, without one all that is not for the
gateway. -/
def selected (fw : FirewallConfig) (net : Network) (p : Packet) : Bool :=
  match fw.ports with
  | some ports => decide (p.dport ∈ ports)
  | none => !net.isLocal p.dst

def Packet.IsQuery (p : Packet) : Prop := p.dport = 53 ∧ (p.proto = .tcp ∨ p.proto = .udp)

def Packet.IsQuic (fw : FirewallConfig) (p : Packet) : Prop :=
  p.proto = .udp ∧ p.dport ∈ fw.quicBlockPorts

instance (p : Packet) : Decidable p.IsQuery := inferInstanceAs (Decidable (_ ∧ _))

instance (fw : FirewallConfig) (p : Packet) : Decidable (p.IsQuic fw) :=
  inferInstanceAs (Decidable (_ ∧ _))

/-- The packet is QUIC that is to be proxied, and the listener is there. -/
def Packet.IsProxied (fw : FirewallConfig) (net : Network) (p : Packet) : Prop :=
  p.IsQuic fw ∧ fw.proxyUdp = true ∧ net.transparent (.of p.dst) fw.proxyPort = true

instance (fw : FirewallConfig) (net : Network) (p : Packet) : Decidable (p.IsProxied fw net) :=
  inferInstanceAs (Decidable (_ ∧ _))

/-- What is to become of a packet that is sent on as it is. -/
def passOn (fw : FirewallConfig) (p : Packet) : Host.Delivery :=
  if p.IsQuic fw ∧ fw.proxyUdp = false then .dropped else .forwarded p

/-- What is to become of a packet of the LAN. Queries go to their target if there is one, the
selected connections go to the port of the proxy and QUIC to its socket; what is for the gateway
stays there, and all else is passed on, but QUIC only if it is to be proxied. Nothing gets to a
loopback address. -/
def policy (fw : FirewallConfig) (addrs : InterfaceAddrs) (net : Network) (p : Packet) :
    Host.Delivery :=
  if p.Enters then
    match if p.IsQuery then dnsTarget (.of p.dst) fw addrs else none with
    | some target =>
      if (p.dnatTo target).isMartian then .martian
      else if net.isLocal target.1 then .local (p.dnatTo target)
      else passOn fw (p.dnatTo target)
    | none =>
      if p.proto = .tcp ∧ selected fw net p then .local (redirected p fw.proxyPort)
      else if p.isMartian then .martian
      else if p.IsProxied fw net then .socket fw.proxyPort
      else if net.isLocal p.dst then .local p
      else passOn fw p
  else .martian

section Chains
variable {fw : FirewallConfig} {addrs : InterfaceAddrs} {f : NftFamily} {net : Network}
  {p : Packet}

theorem not_isQuery_of_isQuic (h : p.IsQuic fw) : ¬p.IsQuery :=
  fun hquery => ne_of_mem_quicBlockPorts h.2 hquery.1

theorem passes_dnsRules_of_no_target (h : p.IsQuery → dnsTarget f fw addrs = none) :
    ∀ rule ∈ dnsRules f fw addrs, Passes (eval net) rule p := by
  by_cases hquery : p.IsQuery
  · rw [dnsRules, h hquery]
    simp
  by_cases hport : p.dport = 53
  · have hudp : p.proto ≠ .udp := fun hudp => hquery ⟨hport, .inr hudp⟩
    have htcp : p.proto ≠ .tcp := fun htcp => hquery ⟨hport, .inl htcp⟩
    unfold dnsRules
    cases dnsTarget f fw addrs with
    | none => simp
    | some target =>
      simp only [List.forall_mem_cons, List.not_mem_nil, false_imp_iff, forall_const, and_true]
      exact ⟨passes_append (passes_iifname _) (passes_of_skip (by simp [eval, hudp])),
        passes_append (passes_iifname _) (passes_of_skip (by simp [eval, htcp]))⟩
  · exact passes_dnsRules hport

/-- The bypass for SSH is for an address of the gateway. -/
theorem passes_sshBypass_of_not_local
    (hown : ∀ ip, interfaceIp f addrs = some ip → net.isLocal ip = true)
    (hlocal : net.isLocal p.dst = false) (hiif : p.iif = some fw.interface) :
    ∀ rule ∈ sshBypass f addrs [.iifname fw.interface], Passes (eval net) rule p := by
  unfold sshBypass
  cases hip : interfaceIp f addrs with
  | none => simp
  | some ip =>
    have hdst : p.dst ≠ ip := by
      rintro rfl
      rw [hown _ hip] at hlocal
      cases hlocal
    simp only [List.forall_mem_singleton]
    left
    simp [evalRule, eval, hiif, hdst]

theorem evalChain_preroutingRules_not_tcp (htcp : p.proto ≠ .tcp)
    (hdns : p.IsQuery → dnsTarget f fw addrs = none) :
    evalChain (eval net) (preroutingRules f fw addrs) p = (true, p) := by
  rw [preroutingRules, evalChain_append_of_passes (passes_dnsRules_of_no_target hdns)]
  apply evalChain_of_keeps
  apply keeps_redirectRules htcp (passes_iifname _)
  simp only [List.forall_mem_append, List.forall_mem_singleton]
  exact ⟨fun rule hrule => .inl (passes_sshBypass htcp (passes_iifname _) rule hrule),
    keeps_append (passes_iifname _) keeps_fibDaddrLocal⟩

theorem evalChain_preroutingRules_tcp (htcp : p.proto = .tcp)
    (hdns : p.IsQuery → dnsTarget f fw addrs = none)
    (hown : ∀ ip, interfaceIp f addrs = some ip → net.isLocal ip = true)
    (hiif : p.iif = some fw.interface) :
    evalChain (eval net) (preroutingRules f fw addrs) p =
      (true, if selected fw net p = true then redirected p fw.proxyPort else p) := by
  have hmatched : evalRule (eval net) [.iifname fw.interface] p = .next p := by
    simp [evalRule, eval, hiif]
  have hselected : selected fw net p = match fw.ports with
    | some ports => decide (p.dport ∈ ports)
    | none => !net.isLocal p.dst := rfl
  rw [preroutingRules, evalChain_append_of_passes (passes_dnsRules_of_no_target hdns)]
  cases hports : fw.ports with
  | some ports =>
    rw [hports] at hselected
    rw [evalChain_redirectPorts htcp hmatched hports, hselected]
    simp
  | none =>
    rw [hports] at hselected
    rw [hselected]
    cases hlocal : net.isLocal p.dst with
    | true =>
      -- the rule for local addresses stands before the redirect
      have haccept : evalRule (eval net) [.iifname fw.interface, .fibDaddrLocal, .ret] p =
          .verdict true p := by
        simp [evalRule, eval, hiif, hlocal]
      have hchain := evalChain_of_prefix (keeps_sshBypass (passes_iifname fw.interface)) haccept
        (List.prefix_refl (sshBypass f addrs [.iifname fw.interface] ++
          [.iifname fw.interface, .fibDaddrLocal, .ret] ::
            [[.iifname fw.interface] ++ [.l4protoTcp, .redirectTo fw.proxyPort]]))
      simpa [redirectRules, hports] using hchain
    | false =>
      rw [evalChain_redirectAll htcp hmatched hports]
      · simp
      · simp only [List.forall_mem_append, List.forall_mem_singleton]
        refine ⟨passes_sshBypass_of_not_local hown hlocal hiif, .inl ?_⟩
        simp [evalRule, eval, hiif, hlocal]

end Chains

section Installed
variable {host : Host} {net : Network} {fw : FirewallConfig} {addrs : InterfaceAddrs} {p : Packet}
  (hrules : ∀ d, host.rules (.of p.dst) d =
    natRules (.of p.dst) fw addrs d ++ udpRules fw (quicStrategy fw) d)
  (hp : LanArrival fw p)
include hrules hp

theorem evalChain_tproxyPrerouting :
    evalChain (eval net) (host.rules (.of p.dst) .tproxyPrerouting) p =
      (true, if p.IsProxied fw net then assigned p fw.proxyPort else p) := by
  have hchain : host.rules (.of p.dst) .tproxyPrerouting =
      if fw.proxyUdp then tproxyRules fw else [] := by
    rw [hrules, natRules_tproxyPrerouting, List.nil_append]
    unfold quicStrategy
    split_ifs <;> simp [udpRules, Host.only]
  rw [evalChain_of_subset_tproxyRules (rules_tproxyPrerouting hrules), hchain]
  congr 1
  refine if_congr ?_ rfl rfl
  cases hproxy : fw.proxyUdp with
  | false => simp [Packet.IsProxied, hproxy]
  | true =>
    have hrule : tproxyRule fw p.dport ∈ tproxyRules fw ↔ p.dport ∈ fw.quicBlockPorts := by
      simp [tproxyRules, tproxyRule]
    rw [if_pos rfl, hrule]
    simp [Packet.IsProxied, Packet.IsQuic, Intercepts, hp.iif, hproxy]
    tauto

/-- Behind the hook a packet is assigned to the listener for QUIC, or redirected to that for
connections, or as it was. -/
theorem hook_prerouting (hown : ∀ f ip, interfaceIp f addrs = some ip → net.isLocal ip = true)
    (hdns : p.IsQuery → dnsTarget (.of p.dst) fw addrs = none) :
    host.hook net .prerouting p = some (if p.IsProxied fw net then assigned p fw.proxyPort
      else if p.proto = .tcp ∧ selected fw net p = true then redirected p fw.proxyPort else p) := by
  simp only [Host.hook, Chain.atHook_prerouting, List.map_cons, List.map_nil, evalHook_cons,
    evalChain_tproxyPrerouting hrules hp, rules_prerouting hrules]
  by_cases hproxied : p.IsProxied fw net
  · have htcp : (assigned p fw.proxyPort).proto ≠ .tcp := by
      rw [show (assigned p fw.proxyPort).proto = p.proto from rfl, hproxied.1.1]
      decide
    have hquery : ¬(assigned p fw.proxyPort).IsQuery := not_isQuery_of_isQuic hproxied.1
    rw [if_pos hproxied, if_pos hproxied,
      evalChain_preroutingRules_not_tcp htcp fun h => absurd h hquery]
    rfl
  · rw [if_neg hproxied, if_neg hproxied]
    by_cases htcp : p.proto = .tcp
    · rw [evalChain_preroutingRules_tcp htcp hdns (hown _) hp.iif]
      simp only [htcp, true_and]
      rfl
    · rw [evalChain_preroutingRules_not_tcp htcp hdns, if_neg fun h => htcp h.1]
      rfl

theorem hook_forward : host.hook net .forward p =
    if p.IsQuic fw ∧ fw.proxyUdp = false then none else some p := by
  have hchain : host.rules (.of p.dst) .quicForward =
      if fw.proxyUdp then [] else quicForwardRules fw := by
    rw [hrules, natRules_quicForward, List.nil_append, udpRules_quicForward]
  simp only [Host.hook, Chain.atHook_forward, List.map_cons, List.map_nil, evalHook_cons, hchain]
  cases fw.proxyUdp with
  | true => simp [evalChain, evalHook]
  | false =>
    have hblock : evalChain (eval net) (quicForwardRules fw) p =
        if p.IsQuic fw then (false, p) else (true, p) := evalChain_quicForwardRules hp.iif
    rw [if_neg Bool.false_ne_true, hblock]
    simp only [and_true]
    split_ifs <;> rfl

omit hrules in
theorem isMartian_assigned (port : UInt16) : (assigned p port).isMartian = p.isMartian ∧
    (assigned p port).isRedirected = false := by
  simp [assigned, Packet.isMartian, Packet.isRedirected, hp.translation]

/-- A packet that no rule has changed stays or is passed on. -/
theorem route_self (hforwarding : host.forwarding (.of p.dst) = true) :
    host.route net p = if net.isLocal p.dst = true then .local p else passOn fw p := by
  have hroute : host.routesToTproxy net p = false := by
    simp [Host.routesToTproxy, hp.mark, tproxyMark]
  have hdelivered : Host.isDelivered net p = net.isLocal p.dst := by
    simp [Host.isDelivered, hp.translation]
  simp only [Host.route, hp.socket, hdelivered, hroute, Bool.or_false, hforwarding, if_true,
    hook_forward hrules hp, passOn]
  split_ifs <;> rfl

theorem receive_eq_policy (hforwarding : host.forwarding (.of p.dst) = true)
    (hown : ∀ f ip, interfaceIp f addrs = some ip → net.isLocal ip = true) :
    host.receive net p = policy fw addrs net p := by
  unfold Host.receive policy
  refine if_congr Iff.rfl ?_ rfl
  cases htarget : (if p.IsQuery then dnsTarget (.of p.dst) fw addrs else none) with
  | some target =>
    obtain ⟨hquery, htarget⟩ := Option.ite_none_right_eq_some.mp htarget
    have hdirected : (p.dnatTo target).isRedirected = false := rfl
    have hroute : host.route net (p.dnatTo target) = if net.isLocal target.1 = true then
        .local (p.dnatTo target) else passOn fw (p.dnatTo target) := by
      rw [route_dns hrules hforwarding htarget hp]
      refine if_congr Iff.rfl rfl (if_congr ?_ rfl rfl)
      simp only [Packet.IsQuic, Packet.dnatTo, and_assoc, and_comm (a := fw.proxyUdp = false)]
    rw [hook_prerouting_dns hrules htarget hp rfl hquery.1 hquery.2]
    simp only [hdirected, hroute, Bool.false_eq_true, not_false_eq_true, and_true]
  | none =>
    have hdns : p.IsQuery → dnsTarget (.of p.dst) fw addrs = none := fun hquery => by
      rwa [if_pos hquery] at htarget
    have hself : p.isRedirected = false := by simp [Packet.isRedirected, hp.translation]
    rw [hook_prerouting hrules hp hown hdns]
    by_cases hproxied : p.IsProxied fw net
    · have htcp : ¬(p.proto = .tcp ∧ selected fw net p = true) := by
        rw [hproxied.1.1]
        simp
      have hassigned : host.route net (assigned p fw.proxyPort) = .socket fw.proxyPort := rfl
      simp only [if_pos hproxied, if_neg htcp, isMartian_assigned hp, hassigned, not_false_eq_true,
        and_true, Bool.false_eq_true]
    · rw [if_neg hproxied, if_neg hproxied]
      by_cases hredirect : p.proto = .tcp ∧ selected fw net p = true
      · have hsocket : (redirected p fw.proxyPort).socket = none := hp.socket
        have hredirected : (redirected p fw.proxyPort).isRedirected = true := rfl
        have hdelivered : Host.isDelivered net (redirected p fw.proxyPort) = true := rfl
        simp only [if_pos hredirect, hredirected, Host.route, hsocket, hdelivered, Bool.true_or,
          not_true_eq_false, and_false, if_false, if_true]
      · simp only [if_neg hredirect, hself, route_self hrules hp hforwarding, Bool.false_eq_true,
          not_false_eq_true, and_true]

end Installed

def sampleOutbound (proto : Proto) (dport : UInt16) : Packet :=
  { proto, dst := .v4 (.new 198 51 100 7), dport, iif := some "eth0", oif := none, mark := 0
    translation := none, socket := none }

end TransProxy.Firewall
