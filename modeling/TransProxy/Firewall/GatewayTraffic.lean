import TransProxy.Firewall.Progress
import TransProxy.Firewall.RuleEffects

/-!
# Traffic that is addressed to the gateway

What arrives on the LAN interface for an address of the gateway itself is to reach it. The
rules for all of TCP leave it alone; those for single ports and for QUIC do not.
-/
namespace TransProxy.Firewall
open Library Net PacketFilter

/-- A packet as it arrives on the LAN interface, for an address of the gateway and for a port
other than that of DNS. -/
structure GatewayArrival (fw : FirewallConfig) (net : Network) (p : Packet) : Prop where
  iif : p.iif = some fw.interface
  isLocal : net.isLocal p.dst = true
  dport : p.dport ≠ 53
  translation : p.translation = none
  socket : p.socket = none

/-- The packet is redirected to the listener or assigned to a transparent socket. -/
def Host.Captures (host : Host) (net : Network) (fw : FirewallConfig) (p : Packet) : Prop :=
  ∃ q, host.hook net .prerouting p = some q ∧
    (q.translation = some (.redirect fw.proxyPort) ∨ q.socket.isSome)

def portRule (fw : FirewallConfig) (port : UInt16) : Rule :=
  [.iifname fw.interface, .tcpDport port, .redirectTo fw.proxyPort]

/-- The packet is TCP for a port of the list, and the redirect of this port was added. -/
def ForListedPort (fw : FirewallConfig) (trace : List (Cmd × Outcome)) (p : Packet) : Prop :=
  p.proto = .tcp ∧ (∃ ports, fw.ports = some ports ∧ p.dport ∈ ports) ∧
    (.addRule (.of p.dst) .prerouting (portRule fw p.dport), .success) ∈ trace

/-- The packet is QUIC that is to be proxied, the rule for its port was added, and its
listener is there. -/
def ForListener (fw : FirewallConfig) (net : Network) (trace : List (Cmd × Outcome)) (p : Packet) :
    Prop :=
  p.proto = .udp ∧ (fw.proxyUdp = true ∧ p.dport ∈ fw.quicBlockPorts) ∧
    net.transparent (.of p.dst) fw.proxyPort = true ∧
    (.addRule (.of p.dst) .tproxyPrerouting (tproxyRule fw p.dport), .success) ∈ trace

section
variable {fw : FirewallConfig} {addrs : InterfaceAddrs} {host : Host} {net : Network} {p : Packet}
  {f : NftFamily} {rules : List Rule} {trace : List (Cmd × Outcome)}

theorem evalRule_iifname (h : GatewayArrival fw net p) :
    evalRule (eval net) [.iifname fw.interface] p = .next p := by
  simp [evalRule, eval, h.iif]

/-- With a list of ports, a packet for the gateway is as good as any other. -/
theorem evalChain_listed (h : GatewayArrival fw net p) (htcp : p.proto = .tcp) {ports : List UInt16}
    (hports : fw.ports = some ports) (hrules : rules ⊆ preroutingRules f fw addrs) :
    evalChain (eval net) rules p = (true,
      if p.dport ∈ ports ∧ portRule fw p.dport ∈ rules then redirected p fw.proxyPort else p) := by
  have hredirect : ∀ port, evalRule (eval net) (portRule fw port) p =
      if p.dport = port then .verdict true (redirected p fw.proxyPort) else .skip p := fun port =>
    evalRule_redirectPort htcp (evalRule_iifname h) port fw.proxyPort
  have hcases : ∀ rule ∈ rules, Passes (eval net) rule p ∨
      ∃ port ∈ ports, rule = portRule fw port := by
    intro rule hrule
    rcases List.mem_append.mp (hrules hrule) with hdns | hport
    · exact .inl (passes_dnsRules h.dport rule hdns)
    · rw [redirectRules, hports] at hport
      obtain ⟨port, hmem, rfl⟩ := List.mem_map.mp hport
      exact .inr ⟨port, hmem, rfl⟩
  split_ifs with hlisted
  · apply evalChain_uniform
    · intro rule hrule
      rcases hcases rule hrule with hpass | ⟨port, _, rfl⟩
      · exact .inl hpass
      · rw [Passes, hredirect]
        split_ifs <;> simp
    · have hverdict : evalRule (eval net) (portRule fw p.dport) p =
          .verdict true (redirected p fw.proxyPort) := by
        rw [hredirect, if_pos rfl]
      exact ⟨_, hlisted.2, not_passes_of_verdict hverdict⟩
  · apply evalChain_of_passes
    intro rule hrule
    rcases hcases rule hrule with hpass | ⟨port, hmem, rfl⟩
    · exact hpass
    · left
      rw [hredirect, if_neg]
      rintro rfl
      exact hlisted ⟨hmem, hrule⟩

/-- Without one, the rule for local addresses comes first. -/
theorem evalChain_unlisted (h : GatewayArrival fw net p) (hports : fw.ports = none)
    (hrules : rules <+: preroutingRules f fw addrs) : evalChain (eval net) rules p = (true, p) := by
  have hlocal : evalRule (eval net) [.iifname fw.interface, .fibDaddrLocal, .ret] p =
      .verdict true p := by
    simp [evalRule, eval, h.iif, h.isLocal]
  have hkeeps : ∀ rule ∈ dnsRules f fw addrs ++ sshBypass f addrs [.iifname fw.interface],
      Keeps (eval net) rule p := by
    simp only [List.forall_mem_append]
    exact ⟨fun rule hrule => .inl (passes_dnsRules h.dport rule hrule),
      keeps_sshBypass (passes_iifname _)⟩
  apply evalChain_of_prefix hkeeps hlocal
  simpa [preroutingRules, redirectRules, hports] using hrules

variable (hprogress : Progress fw addrs trace host)
include hprogress

theorem subset_tproxyRules : host.rules f .tproxyPrerouting ⊆ tproxyRules fw := by
  intro rule hrule
  have hmem := (hprogress.rules f .tproxyPrerouting).subset hrule
  simp only [sectionRules] at hmem
  split_ifs at hmem
  · exact hmem
  · simp at hmem

theorem proxied_of_tproxyRule {port : UInt16}
    (hrule : tproxyRule fw port ∈ host.rules f .tproxyPrerouting) :
    fw.proxyUdp = true ∧ port ∈ fw.quicBlockPorts := by
  have hmem := (hprogress.rules f .tproxyPrerouting).subset hrule
  simp only [sectionRules] at hmem
  split_ifs at hmem with hproxy
  · refine ⟨hproxy, ?_⟩
    obtain ⟨port', hport, heq⟩ := List.mem_map.mp hmem
    obtain rfl : port' = port := by simpa [tproxyRule] using heq
    exact hport
  · simp at hmem

theorem hook_prerouting_of_progress : host.hook net .prerouting p =
    evalHook (eval net) [host.rules (.of p.dst) .prerouting]
      (if tproxyRule fw p.dport ∈ host.rules (.of p.dst) .tproxyPrerouting ∧
        Intercepts net fw p.dport p then assigned p fw.proxyPort else p) := by
  simp only [Host.hook, Chain.atHook_prerouting, List.map_cons, List.map_nil]
  rw [evalHook_cons, evalChain_of_subset_tproxyRules (subset_tproxyRules hprogress)]

variable (h : GatewayArrival fw net p)
include h

theorem captures_iff_of_tcp (htcp : p.proto = .tcp) :
    host.Captures net fw p ↔ ForListedPort fw trace p := by
  have hnot : ¬(tproxyRule fw p.dport ∈ host.rules (.of p.dst) .tproxyPrerouting ∧
      Intercepts net fw p.dport p) := by
    rintro ⟨_, _, ⟨hudp, _⟩, _⟩
    rw [htcp] at hudp
    cases hudp
  have hrules := hprogress.rules (.of p.dst) .prerouting
  have hissued := hprogress.issued (.of p.dst) .prerouting (portRule fw p.dport)
  rw [Host.Captures, hook_prerouting_of_progress hprogress, if_neg hnot, evalHook_cons,
    ForListedPort, ← hissued]
  cases hports : fw.ports with
  | none =>
    rw [evalChain_unlisted h hports hrules]
    simp [evalHook, h.translation, h.socket]
  | some ports =>
    rw [evalChain_listed h htcp hports hrules.subset]
    split_ifs with hlisted
    · simp [evalHook, redirected, htcp, hlisted]
    · simp [evalHook, h.translation, h.socket, htcp, hlisted]

theorem captures_iff_of_not_tcp (htcp : p.proto ≠ .tcp) :
    host.Captures net fw p ↔ ForListener fw net trace p := by
  -- datagrams are redirected by no rule, with a socket or without
  have hkeep : ∀ q : Packet, q.proto = p.proto → q.dport = p.dport →
      evalHook (eval net) [host.rules (.of p.dst) .prerouting] q = some q := by
    intro q hproto hdport
    have hchain : evalChain (eval net) (host.rules (.of p.dst) .prerouting) q = (true, q) := by
      apply evalChain_of_keeps
      intro rule hrule
      exact keeps_preroutingRules (by rwa [hproto]) (by rw [hdport]; exact h.dport) rule
        ((hprogress.rules (.of p.dst) .prerouting).subset hrule)
    rw [evalHook_cons, hchain]
    rfl
  have hissued := hprogress.issued (.of p.dst) .tproxyPrerouting (tproxyRule fw p.dport)
  rw [Host.Captures, hook_prerouting_of_progress hprogress, ForListener, ← hissued]
  split_ifs with hall
  · obtain ⟨hrule, hint⟩ := hall
    rw [hkeep (assigned p fw.proxyPort) rfl rfl]
    refine iff_of_true ⟨_, rfl, .inr rfl⟩ ?_
    exact ⟨hint.2.1.1, proxied_of_tproxyRule hprogress hrule, hint.2.2, hrule⟩
  · rw [hkeep p rfl rfl]
    refine iff_of_false ?_ ?_
    · simp [h.translation, h.socket]
    · rintro ⟨hudp, _, hsocket, hrule⟩
      exact hall ⟨hrule, h.iif, ⟨hudp, rfl⟩, hsocket⟩

theorem captures_iff : host.Captures net fw p ↔
    ForListedPort fw trace p ∨ ForListener fw net trace p := by
  by_cases htcp : p.proto = .tcp
  · have hnot : ¬ForListener fw net trace p := by
      rintro ⟨hudp, _⟩
      rw [htcp] at hudp
      cases hudp
    rw [captures_iff_of_tcp hprogress h htcp, or_iff_left hnot]
  · rw [captures_iff_of_not_tcp hprogress h htcp, or_iff_right fun hlisted => htcp hlisted.1]

end

/-- However far a setup has come on a clean host, its rules leave a packet for the gateway
alone exactly if it is neither TCP for a port of the list nor, while the listener is there,
QUIC, with the rule for its port added. -/
theorem not_captures_iff {env : Config.Env} {config : Config} {addrs : InterfaceAddrs} {host : Host}
    {trace : List (Cmd × Outcome)} {result : Except String Unit} {net : Network} {p : Packet}
    (hclean : host.Clean) (hruns : (setup (.fromConfig env config) addrs).Runs trace result)
    (hp : GatewayArrival (.fromConfig env config) net p) :
    ¬(host.after trace).Captures net (.fromConfig env config) p ↔
      ¬ForListedPort (.fromConfig env config) trace p ∧
        ¬ForListener (.fromConfig env config) net trace p := by
  rw [captures_iff (progress_of_runs hclean hruns) hp, not_or]

def sampleToGateway (port : UInt16) : Packet :=
  { proto := .tcp, dst := .v4 (.new 192 168 1 1), dport := port, iif := some "eth0", oif := none
    mark := 0, translation := none, socket := none }

theorem gatewayArrival_sample {config : Config} {port : UInt16}
    (hinterface : config.interface = "eth0") (hport : port ≠ 53) :
    GatewayArrival (.fromConfig sampleEnv config) sampleNetwork (sampleToGateway port) :=
  ⟨congrArg some hinterface.symm, rfl, hport, rfl, rfl⟩

theorem not_captures_iff_sample :
    ¬(sampleHost.after (sampleTrace sampleSocks5)).Captures sampleNetwork
      (.fromConfig sampleEnv sampleSocks5) (sampleToGateway 80) := by
  have hp : GatewayArrival (.fromConfig sampleEnv sampleSocks5) sampleNetwork (sampleToGateway 80) :=
    gatewayArrival_sample rfl (by decide)
  refine (not_captures_iff clean_sampleHost (runs_sampleTrace sampleSocks5 rfl) hp).mpr ⟨?_, ?_⟩
  · rintro ⟨_, ⟨ports, hports, _⟩, _⟩
    cases hports
  · rintro ⟨hudp, _⟩
    cases hudp

def samplePorts : Config := { sampleSocks5 with ports := some ⟨[22]⟩ }

/-- With port 22 in the list, SSH to the gateway ends up at the proxy. -/
theorem captures_ssh :
    (setup (.fromConfig sampleEnv samplePorts) sampleAddrs).Runs (sampleTrace samplePorts) (.ok ()) ∧
    GatewayArrival (.fromConfig sampleEnv samplePorts) sampleNetwork (sampleToGateway 22) ∧
    (sampleHost.after (sampleTrace samplePorts)).Captures sampleNetwork
      (.fromConfig sampleEnv samplePorts) (sampleToGateway 22) := by
  refine ⟨runs_sampleTrace _ rfl, gatewayArrival_sample rfl (by decide),
    redirected (sampleToGateway 22) 8443, ?_, .inl rfl⟩
  decide

end TransProxy.Firewall
