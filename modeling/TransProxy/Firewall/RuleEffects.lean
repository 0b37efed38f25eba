import TransProxy.Firewall.Installed

/-!
# What the rules of a setup do to a packet
-/
namespace TransProxy.Firewall
open Library Net PacketFilter

variable {net : Network} {p : Packet} {f : NftFamily} {fw : FirewallConfig}
  {addrs : InterfaceAddrs} {rule matched : Rule}

theorem passes_iifname (iface : String) : Passes (eval net) [.iifname iface] p := by
  by_cases h : p.iif = some iface
  · right
    simp [evalRule, eval, h]
  · left
    simp [evalRule, eval, h]

theorem passes_dnsRules (h : p.dport ≠ 53) :
    ∀ rule ∈ dnsRules f fw addrs, Passes (eval net) rule p := by
  unfold dnsRules
  cases dnsTarget f fw addrs with
  | none => simp
  | some target =>
    have hskip : ∀ rest, Passes (eval net) (.udpDport 53 :: rest) p ∧
        Passes (eval net) (.tcpDport 53 :: rest) p := fun rest =>
      ⟨passes_of_skip (by simp [eval, h]), passes_of_skip (by simp [eval, h])⟩
    simp only [List.forall_mem_cons, List.not_mem_nil, false_imp_iff, forall_const, and_true]
    exact ⟨passes_append (passes_iifname _) (hskip _).1,
      passes_append (passes_iifname _) (hskip _).2⟩

theorem passes_tcpDport (h : p.proto ≠ .tcp) (port : UInt16) (rest : Rule) :
    Passes (eval net) (.tcpDport port :: rest) p :=
  passes_of_skip (by simp [eval, h])

theorem passes_l4protoTcp (h : p.proto ≠ .tcp) (rest : Rule) :
    Passes (eval net) (.l4protoTcp :: rest) p :=
  passes_of_skip (by simp [eval, h])

theorem passes_daddr (ip : IpAddr) : Passes (eval net) [.daddr ip] p := by
  by_cases h : p.dst = ip
  · right
    simp [evalRule, eval, h]
  · left
    simp [evalRule, eval, h]

theorem evalRule_fibDaddrLocal : evalRule (eval net) [.fibDaddrLocal, .ret] p =
    if net.isLocal p.dst = true then .verdict true p else .skip p := by
  by_cases h : net.isLocal p.dst = true
  · simp [evalRule, eval, h]
  · simp [evalRule, eval, h]

theorem keeps_fibDaddrLocal : Keeps (eval net) [.fibDaddrLocal, .ret] p := by
  rw [Keeps, Passes, evalRule_fibDaddrLocal]
  split_ifs <;> simp

section NotTcp
variable (h : p.proto ≠ .tcp)
include h

theorem passes_sshBypass (hm : Passes (eval net) matched p) :
    ∀ rule ∈ sshBypass f addrs matched, Passes (eval net) rule p := by
  unfold sshBypass
  cases interfaceIp f addrs with
  | none => simp
  | some ip =>
    simp only [List.forall_mem_singleton]
    exact passes_append hm (passes_append (passes_daddr ip) (passes_tcpDport h 22 _))

/-- Only TCP is redirected. -/
theorem keeps_redirectRules {exemptions : List Rule} (hm : Passes (eval net) matched p)
    (hexempt : ∀ rule ∈ exemptions, Keeps (eval net) rule p) :
    ∀ rule ∈ redirectRules fw matched exemptions, Keeps (eval net) rule p := by
  unfold redirectRules
  cases fw.ports with
  | none =>
    simp only [List.forall_mem_append, List.forall_mem_singleton]
    exact ⟨hexempt, .inl (passes_append hm (passes_l4protoTcp h _))⟩
  | some ports =>
    simp only [List.forall_mem_map]
    exact fun port _ => .inl (passes_append hm (passes_tcpDport h port _))

theorem keeps_preroutingRules (hdns : p.dport ≠ 53) :
    ∀ rule ∈ preroutingRules f fw addrs, Keeps (eval net) rule p := by
  unfold preroutingRules
  simp only [List.forall_mem_append]
  refine ⟨fun rule hrule => .inl (passes_dnsRules hdns rule hrule), ?_⟩
  apply keeps_redirectRules h (passes_iifname _)
  simp only [List.forall_mem_append, List.forall_mem_singleton]
  exact ⟨fun rule hrule => .inl (passes_sshBypass h (passes_iifname _) rule hrule),
    keeps_append (passes_iifname _) keeps_fibDaddrLocal⟩

end NotTcp

def redirected (p : Packet) (port : UInt16) : Packet :=
  { p with dport := port, translation := some (.redirect port) }

section Tcp
variable (htcp : p.proto = .tcp) (hm : evalRule (eval net) matched p = .next p)
include htcp hm

theorem evalRule_redirectPort (port target : UInt16) :
    evalRule (eval net) (matched ++ [.tcpDport port, .redirectTo target]) p =
      if p.dport = port then .verdict true (redirected p target) else .skip p := by
  rw [evalRule_append, hm]
  by_cases hport : p.dport = port
  · simp [evalRule, eval, htcp, hport, redirected]
  · simp [evalRule, eval, hport]

theorem evalRule_redirectAll (target : UInt16) :
    evalRule (eval net) (matched ++ [.l4protoTcp, .redirectTo target]) p =
      .verdict true (redirected p target) := by
  rw [evalRule_append, hm]
  simp [evalRule, eval, htcp, redirected]

/-- With a list of ports, just these are redirected. -/
theorem evalChain_redirectPorts {ports : List UInt16} {exemptions : List Rule}
    (hports : fw.ports = some ports) :
    evalChain (eval net) (redirectRules fw matched exemptions) p =
      (true, if p.dport ∈ ports then redirected p fw.proxyPort else p) := by
  rw [redirectRules, hports]
  split_ifs with hmem
  · apply evalChain_uniform
    · simp only [List.forall_mem_map, Passes, evalRule_redirectPort htcp hm]
      intro port _
      split_ifs <;> simp
    · have hverdict : evalRule (eval net) (matched ++ [.tcpDport p.dport, .redirectTo fw.proxyPort])
          p = .verdict true (redirected p fw.proxyPort) := by
        rw [evalRule_redirectPort htcp hm, if_pos rfl]
      exact ⟨_, List.mem_map_of_mem hmem, not_passes_of_verdict hverdict⟩
  · apply evalChain_of_passes
    simp only [List.forall_mem_map, Passes, evalRule_redirectPort htcp hm]
    intro port hport
    rw [if_neg]
    · exact .inl rfl
    · rintro rfl
      exact hmem hport

/-- Without one, all of TCP is redirected that passes the exemptions. -/
theorem evalChain_redirectAll {exemptions : List Rule} (hports : fw.ports = none)
    (hexempt : ∀ rule ∈ exemptions, Passes (eval net) rule p) :
    evalChain (eval net) (redirectRules fw matched exemptions) p =
      (true, redirected p fw.proxyPort) := by
  rw [redirectRules, hports]
  exact evalChain_append_of_verdict hexempt (evalRule_redirectAll htcp hm _)

end Tcp

theorem evalRule_exemption (ip : IpAddr) (port : UInt16) :
    evalRule (eval net) [.daddr ip, .tcpDport port, .ret] p =
      if p.dst = ip ∧ p.proto = .tcp ∧ p.dport = port then .verdict true p else .skip p := by
  by_cases hdst : p.dst = ip
  · by_cases hport : p.proto = .tcp ∧ p.dport = port
    · simp [evalRule, eval, hdst, hport]
    · simp [evalRule, eval, hdst, hport]
  · simp [evalRule, eval, hdst]

theorem keeps_exemption (ip : IpAddr) (port : UInt16) :
    Keeps (eval net) [.daddr ip, .tcpDport port, .ret] p := by
  rw [Keeps, Passes, evalRule_exemption]
  split_ifs <;> simp

theorem keeps_sshBypass (hm : Passes (eval net) matched p) :
    ∀ rule ∈ sshBypass f addrs matched, Keeps (eval net) rule p := by
  unfold sshBypass
  cases interfaceIp f addrs with
  | none => simp
  | some ip =>
    simp only [List.forall_mem_singleton]
    exact keeps_append hm (keeps_exemption ip 22)

theorem evalRule_markRule (fwmark : UInt32) : evalRule (eval net) [.mark fwmark, .ret] p =
    if p.mark = fwmark then .verdict true p else .skip p := by
  by_cases h : p.mark = fwmark
  · simp [evalRule, eval, h]
  · simp [evalRule, eval, h]

theorem keeps_markRule (fwmark : UInt32) : Keeps (eval net) [.mark fwmark, .ret] p := by
  rw [Keeps, Passes, evalRule_markRule]
  split_ifs <;> simp

/-- The rules of the output chain in front of its redirects. -/
def outputExemptions (f : NftFamily) (fw : FirewallConfig) (fwmark : UInt32) : List Rule :=
  [[.mark fwmark, .ret]] ++ (fw.upstreamAddr.bind (upstreamOutputExclusion f)).toList ++
    [[.fibDaddrLocal, .ret]]

theorem outputRules_eq (fwmark : UInt32) : outputRules f fw addrs fwmark =
    outputExemptions f fw fwmark ++ redirectRules fw [] (sshBypass f addrs []) := rfl

theorem mem_upstreamExclusion
    (h : rule ∈ (fw.upstreamAddr.bind (upstreamOutputExclusion f)).toList) :
    ∃ upstream, fw.upstreamAddr = some upstream ∧ .of upstream.ip = f ∧
      rule = [.daddr upstream.ip, .tcpDport upstream.port, .ret] := by
  cases haddr : fw.upstreamAddr with
  | none => simp [haddr] at h
  | some upstream =>
    simp only [haddr, Option.bind_some, upstreamOutputExclusion] at h
    split_ifs at h with hfamily
    · exact ⟨upstream, rfl, hfamily, by simpa using h⟩
    · simp at h

theorem keeps_outputExemptions (fwmark : UInt32) :
    ∀ rule ∈ outputExemptions f fw fwmark, Keeps (eval net) rule p := by
  simp only [outputExemptions, List.forall_mem_append, List.forall_mem_singleton]
  refine ⟨⟨keeps_markRule fwmark, ?_⟩, keeps_fibDaddrLocal⟩
  intro rule hrule
  obtain ⟨upstream, _, _, rfl⟩ := mem_upstreamExclusion hrule
  exact keeps_exemption upstream.ip upstream.port

def assigned (p : Packet) (port : UInt16) : Packet :=
  { p with socket := some port, mark := tproxyMark }

/-- What a rule for the interception of a port asks of a packet. -/
def Intercepts (net : Network) (fw : FirewallConfig) (port : UInt16) (p : Packet) : Prop :=
  p.iif = some fw.interface ∧ (p.proto = .udp ∧ p.dport = port) ∧
    net.transparent (.of p.dst) fw.proxyPort = true

instance (port : UInt16) : Decidable (Intercepts net fw port p) :=
  inferInstanceAs (Decidable (_ ∧ _ ∧ _))

theorem evalRule_tproxyRule_of {port : UInt16} (h : Intercepts net fw port p) :
    evalRule (eval net) (tproxyRule fw port) p = .verdict true (assigned p fw.proxyPort) := by
  simp [tproxyRule, evalRule, eval, h.1, h.2.1, h.2.2, assigned]

theorem passes_tproxyRule {port : UInt16} (h : ¬Intercepts net fw port p) :
    Passes (eval net) (tproxyRule fw port) p := by
  left
  by_cases hiif : p.iif = some fw.interface
  · by_cases hport : p.proto = .udp ∧ p.dport = port
    · have hsocket : ¬net.transparent (.of p.dst) fw.proxyPort = true := fun hs => h ⟨hiif, hport, hs⟩
      simp [tproxyRule, evalRule, eval, hiif, hport, hsocket]
    · simp [tproxyRule, evalRule, eval, hiif, hport]
  · simp [tproxyRule, evalRule, eval, hiif]

theorem passes_tproxyRule_iff {port : UInt16} :
    Passes (eval net) (tproxyRule fw port) p ↔ ¬Intercepts net fw port p :=
  ⟨fun hpass h => not_passes_of_verdict (evalRule_tproxyRule_of h) hpass, passes_tproxyRule⟩

/-- Of the rules for the ports, the one for that of the packet decides. -/
theorem evalChain_of_subset_tproxyRules {rules : List Rule} (hrules : rules ⊆ tproxyRules fw) :
    evalChain (eval net) rules p = (true,
      if tproxyRule fw p.dport ∈ rules ∧ Intercepts net fw p.dport p then assigned p fw.proxyPort
      else p) := by
  split_ifs with h
  · apply evalChain_uniform
    · intro rule hrule
      obtain ⟨port, _, rfl⟩ := List.mem_map.mp (hrules hrule)
      by_cases hport : Intercepts net fw port p
      · exact .inr (evalRule_tproxyRule_of hport)
      · exact .inl (passes_tproxyRule hport)
    · exact ⟨_, h.1, not_passes_of_verdict (evalRule_tproxyRule_of h.2)⟩
  · apply evalChain_of_passes
    intro rule hrule
    obtain ⟨port, _, rfl⟩ := List.mem_map.mp (hrules hrule)
    apply passes_tproxyRule
    intro hint
    obtain rfl : p.dport = port := hint.2.1.2
    exact h ⟨hrule, hint⟩

/-- A rule that drops datagrams, behind the match of the interface it begins with. -/
theorem evalRule_quicDropRule {dir : Expr} {b : Bool} {port : UInt16}
    (hdir : eval net dir p = matching b p) : evalRule (eval net) (quicDropRule dir port) p =
      if b = true ∧ p.proto = .udp ∧ p.dport = port then .verdict false p else .skip p := by
  rw [quicDropRule, evalRule_cons, hdir]
  cases b with
  | false => simp
  | true =>
    by_cases hport : p.proto = .udp ∧ p.dport = port
    · simp [evalRule, eval, hport]
    · simp [evalRule, eval, hport]

theorem passes_quicDropRule_iff {dir : Expr} {b : Bool} {port : UInt16}
    (hdir : eval net dir p = matching b p) : Passes (eval net) (quicDropRule dir port) p ↔
      ¬(b = true ∧ p.proto = .udp ∧ p.dport = port) := by
  rw [Passes, evalRule_quicDropRule hdir]
  split_ifs with h <;> simp [h]

end TransProxy.Firewall
