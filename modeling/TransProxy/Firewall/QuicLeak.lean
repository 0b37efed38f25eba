import TransProxy.Firewall.History
import TransProxy.Firewall.RuleEffects

/-!
# QUIC that gets past the proxy

A datagram from the LAN is stopped by a rule that drops it or by one that has a socket to
assign it to. The setup sees to one of the two for every QUIC port; the second one stops
nothing while the listener is not there.
-/
namespace TransProxy.Firewall
open Library Net PacketFilter

/-- A datagram for a QUIC port as it arrives from the LAN. -/
structure QuicArrival (fw : FirewallConfig) (p : Packet) : Prop where
  proto : p.proto = .udp
  iif : p.iif = some fw.interface
  dport : p.dport ∈ fw.quicBlockPorts
  mark : p.mark = 0
  translation : p.translation = none
  socket : p.socket = none

theorem ne_of_mem_quicBlockPorts {fw : FirewallConfig} {port : UInt16}
    (h : port ∈ fw.quicBlockPorts) : port ≠ 53 := by
  unfold FirewallConfig.quicBlockPorts at h
  split_ifs at h
  · simp at h
  · cases hports : fw.ports with
    | none =>
      rw [hports] at h
      rw [List.mem_singleton.mp h]
      decide
    | some ports =>
      rw [hports] at h
      simpa using (List.mem_filter.mp h).2

namespace Host
variable {host : Host} (net : Network) {p : Packet}

/-- Some rule drops the packet or assigns it to a socket. -/
def Stops (host : Host) (net : Network) (p : Packet) : Prop :=
  (∃ rule ∈ host.rules (.of p.dst) .tproxyPrerouting, ¬Passes (eval net) rule p) ∨
    ∃ rule ∈ host.rules (.of p.dst) .quicForward, ¬Passes (eval net) rule p

theorem verdict_of_tproxyPrerouting {rule : Rule} (h : RuleOfSetup .tproxyPrerouting rule) :
    Passes (eval net) rule p ∨ ∃ accept q, (accept = true ∧ ∃ port, q = assigned p port) ∧
      evalRule (eval net) rule p = .verdict accept q := by
  cases h with
  | tproxyPrerouting fw port =>
    by_cases hint : Intercepts net fw port p
    · exact .inr ⟨true, _, ⟨rfl, fw.proxyPort, rfl⟩, evalRule_tproxyRule_of hint⟩
    · exact .inl (passes_tproxyRule hint)

theorem verdict_of_quicForward {rule : Rule} (h : RuleOfSetup .quicForward rule) :
    Passes (eval net) rule p ∨
      ∃ accept q, accept = false ∧ evalRule (eval net) rule p = .verdict accept q := by
  cases h with
  | quicForward iface port =>
    by_cases hdrop : decide (p.iif = some iface) = true ∧ p.proto = .udp ∧ p.dport = port
    · exact .inr ⟨false, p, rfl, (evalRule_quicDropRule rfl).trans (if_pos hdrop)⟩
    · exact .inl ((passes_quicDropRule_iff rfl).mpr hdrop)

theorem evalChain_prerouting (hrules : host.RulesOfSetup) (hudp : p.proto = .udp)
    (hdns : p.dport ≠ 53) (f : NftFamily) :
    evalChain (eval net) (host.rules f .prerouting) p = (true, p) := by
  apply evalChain_of_keeps
  intro rule hrule
  cases hrules f .prerouting rule hrule with
  | prerouting h => exact keeps_preroutingRules (by simp [hudp]) hdns rule h

/-- A datagram behind the prerouting chains: with a socket, if a rule has one for it, and
as it was otherwise. -/
theorem hook_prerouting (hrules : host.RulesOfSetup) (hudp : p.proto = .udp)
    (hdns : p.dport ≠ 53) :
    ((∀ rule ∈ host.rules (.of p.dst) .tproxyPrerouting, Passes (eval net) rule p) ∧
      host.hook net .prerouting p = some p) ∨
    ((∃ rule ∈ host.rules (.of p.dst) .tproxyPrerouting, ¬Passes (eval net) rule p) ∧
      ∃ port, host.hook net .prerouting p = some (assigned p port)) := by
  simp only [hook, Chain.atHook_prerouting, List.map_cons, List.map_nil, evalHook_cons]
  rcases evalChain_cases fun rule hrule =>
    verdict_of_tproxyPrerouting net (hrules _ _ rule hrule) with
    ⟨hall, heq⟩ | ⟨hsome, _, _, ⟨rfl, port, rfl⟩, heq⟩
  · left
    refine ⟨hall, ?_⟩
    rw [heq]
    dsimp only
    rw [evalChain_prerouting net hrules hudp hdns]
    rfl
  · right
    refine ⟨hsome, port, ?_⟩
    rw [heq]
    dsimp only
    rw [evalChain_prerouting net (p := assigned p port) hrules hudp hdns]
    rfl

theorem hook_forward (hrules : host.RulesOfSetup) :
    ((∀ rule ∈ host.rules (.of p.dst) .quicForward, Passes (eval net) rule p) ∧
      host.hook net .forward p = some p) ∨
    ((∃ rule ∈ host.rules (.of p.dst) .quicForward, ¬Passes (eval net) rule p) ∧
      host.hook net .forward p = none) := by
  simp only [hook, Chain.atHook_forward, List.map_cons, List.map_nil, evalHook_cons]
  rcases evalChain_cases fun rule hrule =>
    verdict_of_quicForward net (hrules _ _ rule hrule) with
    ⟨hall, heq⟩ | ⟨hsome, _, _, rfl, heq⟩
  · left
    refine ⟨hall, ?_⟩
    rw [heq]
    rfl
  · right
    refine ⟨hsome, ?_⟩
    rw [heq]

/-- A datagram from the network that no rule stops is forwarded. -/
theorem forwarded_iff (hrules : host.RulesOfSetup) (hudp : p.proto = .udp) (hdns : p.dport ≠ 53)
    (hmark : p.mark = 0) (htranslation : p.translation = none) (hsocket : p.socket = none) :
    (∃ q, host.verdict net p = .forwarded q) ↔
      net.isLocal p.dst = false ∧ host.forwarding (.of p.dst) = true ∧ ¬host.Stops net p := by
  have hroute : host.routesToTproxy net p = false := by
    simp [routesToTproxy, hmark, tproxyMark]
  have hdelivered : isDelivered net p = net.isLocal p.dst := by simp [isDelivered, htranslation]
  unfold verdict Stops
  rcases hook_prerouting net hrules hudp hdns with ⟨hall, heq⟩ | ⟨hsome, port, heq⟩
  · have hnone : ¬∃ rule ∈ host.rules (.of p.dst) .tproxyPrerouting, ¬Passes (eval net) rule p := by
      simpa using hall
    rw [heq]
    simp only [route, hsocket, hdelivered, hroute, Bool.or_false, hnone, false_or]
    cases hlocal : net.isLocal p.dst with
    | true => simp
    | false =>
      cases hforwarding : host.forwarding (.of p.dst) with
      | false => simp
      | true =>
        rcases hook_forward net hrules with ⟨hpass, hsome⟩ | ⟨hdrop, hnone⟩
        · rw [hsome]
          simpa using hpass
        · rw [hnone]
          simpa using hdrop
  · rw [heq]
    simp [route, hsome, assigned]

end Host

section Arrival
variable {fw : FirewallConfig} {addrs : InterfaceAddrs} {net : Network} {p : Packet}

theorem exists_tproxyRules (h : QuicArrival fw p) :
    (∃ rule ∈ tproxyRules fw, ¬Passes (eval net) rule p) ↔
      net.transparent (.of p.dst) fw.proxyPort = true := by
  constructor
  · rintro ⟨rule, hrule, hnot⟩
    obtain ⟨port, _, rfl⟩ := List.mem_map.mp hrule
    rw [passes_tproxyRule_iff, not_not] at hnot
    exact hnot.2.2
  · intro hsocket
    refine ⟨_, List.mem_map_of_mem h.dport, ?_⟩
    rw [passes_tproxyRule_iff, not_not]
    exact ⟨h.iif, ⟨h.proto, rfl⟩, hsocket⟩

theorem exists_quicForwardRules (h : QuicArrival fw p) :
    ∃ rule ∈ quicForwardRules fw, ¬Passes (eval net) rule p := by
  refine ⟨_, List.mem_map_of_mem h.dport, ?_⟩
  rw [passes_quicDropRule_iff (b := decide (p.iif = some fw.interface)) rfl, not_not]
  exact ⟨by simp [h.iif], h.proto, rfl⟩

/-- What the rules of the setup stop: everything, unless they are to intercept it. -/
theorem stops_udpRules_iff {f : NftFamily} {trace : List (Cmd × Outcome)} {strategy : QuicStrategy}
    (hchosen : Chosen fw f trace strategy) (hblock : fw.blockQuic = true) (h : QuicArrival fw p) :
    ((∃ rule ∈ udpRules fw strategy .tproxyPrerouting, ¬Passes (eval net) rule p) ∨
      ∃ rule ∈ udpRules fw strategy .quicForward, ¬Passes (eval net) rule p) ↔
    fw.proxyUdp = false ∨ FailedOn f .tproxyPrerouting trace ∨
      net.transparent (.of p.dst) fw.proxyPort = true := by
  have hdrop : ∀ left, ∃ rule ∈ udpRules fw (.drop left) .quicForward,
      ¬Passes (eval net) rule p := by
    intro left
    simpa [udpRules, Host.only] using exists_quicForwardRules h
  cases hchosen with
  | pass hproxy hpass =>
    rw [hblock] at hpass
    cases hpass
  | tproxy hproxy hsuccess =>
    simp only [hproxy, hsuccess, reduceCtorEq, false_or]
    rw [← exists_tproxyRules h]
    simp [udpRules, Host.only]
  | fallback hproxy hfailed left => exact iff_of_true (.inr (hdrop left)) (.inr (.inl hfailed))
  | drop hproxy _ => exact iff_of_true (.inr (hdrop 0)) (.inl hproxy)

end Arrival

/-- After a setup that succeeds, no QUIC datagram of the LAN is forwarded exactly if it is for
the gateway itself, or UDP is not proxied, or the commands for the interception did not all
succeed, or the listener is there, or a rule that an earlier setup has left stops it. -/
theorem not_forwarded_iff {env : Config.Env} {config : Config} {addrs : InterfaceAddrs} {host : Host}
    {trace : List (Cmd × Outcome)} {net : Network} {p : Packet} {ip : Ipv4Addr}
    (hreach : host.Reachable) (hquic : config.allowQuic = false)
    (hruns : (setup (.fromConfig env config) addrs).Runs trace (.ok ()))
    (hp : QuicArrival (.fromConfig env config) p) (hdst : p.dst = .v4 ip) :
    (∀ q, (host.after trace).verdict net p ≠ .forwarded q) ↔
      net.isLocal p.dst = true ∨ (FirewallConfig.fromConfig env config).proxyUdp = false ∨
        FailedOn .ip .tproxyPrerouting trace ∨ net.transparent .ip config.listenAddr.port = true ∨
          (host.after (trace.take 2)).Stops net p := by
  have hfamily : NftFamily.of p.dst = .ip := by rw [hdst]; rfl
  have hblock : (FirewallConfig.fromConfig env config).blockQuic = true := by
    simp [FirewallConfig.fromConfig, hquic]
  obtain ⟨strategy, hchosen, hforwarding, hrules⟩ := (setupOk_of_runs hruns).rules_ip host
  have hall : (host.after trace).RulesOfSetup := hreach.rulesOfSetup.after (issues_setup _ _ hruns)
  have hstops : (host.after trace).Stops net p ↔ (host.after (trace.take 2)).Stops net p ∨
      ((∃ rule ∈ udpRules (.fromConfig env config) strategy .tproxyPrerouting,
        ¬Passes (eval net) rule p) ∨
      ∃ rule ∈ udpRules (.fromConfig env config) strategy .quicForward,
        ¬Passes (eval net) rule p) := by
    rw [Host.Stops, Host.Stops, hfamily, hrules, hrules, natRules_tproxyPrerouting,
      natRules_quicForward]
    simp only [List.nil_append, List.mem_append, or_and_right, exists_or]
    exact or_or_or_comm
  have hforward := Host.forwarded_iff net hall hp.proto (ne_of_mem_quicBlockPorts hp.dport)
    hp.mark hp.translation hp.socket
  rw [stops_udpRules_iff hchosen hblock hp, hfamily] at hstops
  rw [hfamily, hforwarding, hstops] at hforward
  rw [← not_exists, hforward]
  simp only [true_and, not_and_or, not_not, Bool.not_eq_false]
  constructor
  · rintro (hlocal | hstale | hproxy | hfailed | hsocket)
    · exact .inl hlocal
    · exact .inr (.inr (.inr (.inr hstale)))
    · exact .inr (.inl hproxy)
    · exact .inr (.inr (.inl hfailed))
    · exact .inr (.inr (.inr (.inl hsocket)))
  · rintro (hlocal | hproxy | hfailed | hsocket | hstale)
    · exact .inl hlocal
    · exact .inr (.inr (.inl hproxy))
    · exact .inr (.inr (.inr (.inl hfailed)))
    · exact .inr (.inr (.inr (.inr hsocket)))
    · exact .inr (.inl hstale)

/-- A datagram of HTTP/3 to a web server. -/
def sampleQuic : Packet :=
  { proto := .udp, dst := .v4 (.new 198 51 100 7), dport := 443, iif := some "eth0", oif := none
    mark := 0, translation := none, socket := none }

theorem quicArrival_sampleQuic : QuicArrival (.fromConfig sampleEnv sampleSocks5) sampleQuic :=
  ⟨rfl, rfl, by decide, rfl, rfl, rfl⟩

theorem not_forwarded_iff_sample :
    ¬∃ q, (sampleHost.after (sampleTrace sampleSocks5)).verdict
      { isLocal := fun _ => false, transparent := fun _ _ => true } sampleQuic = .forwarded q := by
  rw [not_exists]
  exact (not_forwarded_iff (.clean clean_sampleHost) rfl (runs_sampleTrace sampleSocks5 rfl)
    quicArrival_sampleQuic rfl).mpr (.inr (.inr (.inr (.inl rfl))))

/-- Without the listener, the datagram is forwarded as it is. -/
theorem forwarded_without_listener :
    (setup (.fromConfig sampleEnv sampleSocks5) sampleAddrs).Runs (sampleTrace sampleSocks5) (.ok ()) ∧
    (sampleHost.after (sampleTrace sampleSocks5)).verdict
      { isLocal := fun _ => false, transparent := fun _ _ => false } sampleQuic =
        .forwarded sampleQuic :=
  ⟨runs_sampleTrace sampleSocks5 rfl, by decide⟩

end TransProxy.Firewall
