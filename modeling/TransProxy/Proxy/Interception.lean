import TransProxy.Firewall.DnsDelivery
import TransProxy.Proxy.Hostname

/-!
# From the LAN to the upstream proxy

The rules send a connection to the listener without changing what it was for: the kernel tells
the proxy where the client meant to go, and the upstream proxy is asked for that.
-/
namespace TransProxy.Proxy
open Library Net Tunnel Dns Firewall Config

/-- Where on the host a packet is going. A redirect leads to an address of the interface. -/
def destination (own : NftFamily → IpAddr) (q : Packet) : IpAddr :=
  match q.translation with
  | some (.redirect _) => own (.of q.dst)
  | some (.dnat _ _) => q.dst
  | none => q.dst

def Served (host : Host) (net : Network) (own : NftFamily → IpAddr) (dual : Bool)
    (bound : SocketAddr) (p : Packet) : Prop :=
  ∃ q, host.receive net p = .local q ∧ Takes dual bound (destination own q) q.dport

section Served
variable {host : Host} {net : Network} {fw : FirewallConfig} {addrs : InterfaceAddrs} {p : Packet}
  (hrules : ∀ d, host.rules (.of p.dst) d =
    natRules (.of p.dst) fw addrs d ++ udpRules fw (quicStrategy fw) d)
  (hown : ∀ f ip, interfaceIp f addrs = some ip → net.isLocal ip = true)
  (hp : LanArrival fw p) (htcp : p.proto = .tcp)
  (hdns : p.IsQuery → dnsTarget (.of p.dst) fw addrs = none)

theorem not_isQuic_of_tcp (htcp : p.proto = .tcp) : ¬p.IsQuic fw := by
  rintro ⟨hudp, _⟩
  rw [htcp] at hudp
  cases hudp

include hrules hown hp htcp hdns

variable (hforwarding : host.forwarding (.of p.dst) = true)
include hforwarding

theorem receive_of_tcp : host.receive net p =
    if p.Enters then
      if selected fw net p = true then .local (redirected p fw.proxyPort)
      else if p.isMartian = true then .martian
      else if net.isLocal p.dst = true then .local p else .forwarded p
    else .martian := by
  have htarget : (if p.IsQuery then dnsTarget (.of p.dst) fw addrs else none) = none := by
    split_ifs with hquery
    · exact hdns hquery
    · rfl
  rw [receive_eq_policy hrules hp hforwarding hown, policy, htarget]
  simp only [Packet.IsProxied, passOn, not_isQuic_of_tcp htcp, false_and, if_false, htcp, true_and]

theorem served_iff {own : NftFamily → IpAddr} {dual : Bool} {bound : SocketAddr} :
    Served host net own dual bound p ↔
      p.Enters ∧ if selected fw net p = true then Takes dual bound (own (.of p.dst)) fw.proxyPort
        else p.isMartian = false ∧ net.isLocal p.dst = true ∧ Takes dual bound p.dst p.dport := by
  have hdirect : destination own p = p.dst := by simp [destination, hp.translation]
  have hredirect : destination own (redirected p fw.proxyPort) = own (.of p.dst) := rfl
  have hport : (redirected p fw.proxyPort).dport = fw.proxyPort := rfl
  rw [Served, receive_of_tcp hrules hown hp htcp hdns hforwarding]
  split_ifs with henters hselected hmartian hlocal
  · simp [henters, hredirect, hport]
  · simp [hmartian]
  · simp [henters, hmartian, hlocal, hdirect]
  · simp [hlocal]
  · simp [henters]
  · simp [henters]

theorem forwarded_iff (q : Packet) : host.receive net p = .forwarded q ↔
    q = p ∧ selected fw net p = false ∧ p.isMartian = false ∧ net.isLocal p.dst = false := by
  have henters : p.isMartian = false → p.Enters := fun h _ => h
  rw [receive_of_tcp hrules hown hp htcp hdns hforwarding]
  split_ifs with h hselected hmartian hlocal
  · simp [hselected]
  · simp [hmartian]
  · simp [hlocal]
  · simp [hselected, hmartian, hlocal, eq_comm]
  · have hmartian : p.isMartian = true := by
      by_contra hnot
      exact h (henters (Bool.eq_false_iff.mpr hnot))
    simp [hmartian]

end Served

/-- The address that the client dialled, as the proxy is told of it. -/
def dialled (flowinfo scopeId : UInt32) (p : Packet) : SocketAddr :=
  match p.dst with
  | .v4 ip => .v4 ip p.dport
  | .v6 ip => .v6 ip p.dport flowinfo scopeId

/-- The accepted connection began with the packet: its end at the gateway is of the same family,
and connection tracking has kept where the packet was going when it arrived. -/
def Began (flowinfo scopeId : UInt32) (p : Packet) (localAddr : SocketAddr) (sock : Sockopts) :
    Prop :=
  NftFamily.of (wireAddr localAddr.ip) = .of p.dst ∧
    match p.dst with
    | .v4 ip => sock.originalDst = .ok (ip, p.dport)
    | .v6 ip => sock.originalDst6 = .ok (ip, p.dport, flowinfo, scopeId)

section Began
variable {flowinfo scopeId : UInt32} {p : Packet} {localAddr : SocketAddr} {sock : Sockopts}

theorem isV4Mapped_iff (addr : SocketAddr) : Linux.isV4Mapped addr = true ↔
    NftFamily.of addr.ip = .ip6 ∧ NftFamily.of (wireAddr addr.ip) = .ip := by
  cases addr with
  | v4 ip port => simp [Linux.isV4Mapped, SocketAddr.ip, NftFamily.of]
  | v6 ip port flowinfo scopeId =>
    cases hmapped : toIpv4Mapped ip <;>
      simp [Linux.isV4Mapped, SocketAddr.ip, wireAddr, hmapped, NftFamily.of]

/-- Over either family, the destination is the address that was dialled, unless that is the listen
address. -/
theorem getOriginalDest_of_began (hbegan : Began flowinfo scopeId p localAddr sock)
    (listenAddr : SocketAddr) : getOriginalDest (.linux sock) localAddr listenAddr =
      checkLoop listenAddr (dialled flowinfo scopeId p) := by
  obtain ⟨hfamily, hkept⟩ := hbegan
  have hmapped := isV4Mapped_iff localAddr
  rw [hfamily] at hmapped
  cases hdst : p.dst with
  | v4 ip =>
    simp only [hdst] at hkept
    have hdest : Linux.getOriginalDestV4 sock = .ok (dialled flowinfo scopeId p) := by
      simp [Linux.getOriginalDestV4, hkept, dialled, hdst, context, Except.mapError, Except.map]
    cases localAddr with
    | v4 lip lport =>
      simp [getOriginalDest, Linux.getOriginalDest, Linux.isV4Mapped, hdest, context,
        Except.mapError, bind, Except.bind]
    | v6 lip lport lflow lscope =>
      have hv4 : Linux.isV4Mapped (.v6 lip lport lflow lscope) = true :=
        hmapped.mpr ⟨rfl, by rw [hdst]; rfl⟩
      simp [getOriginalDest, Linux.getOriginalDest, hv4, hdest, context, Except.mapError, bind,
        Except.bind]
  | v6 ip =>
    simp only [hdst] at hkept
    have hdest : Linux.getOriginalDestV6 sock = .ok (dialled flowinfo scopeId p) := by
      simp [Linux.getOriginalDestV6, hkept, dialled, hdst, context, Except.mapError, Except.map]
    cases localAddr with
    | v4 lip lport =>
      rw [hdst] at hfamily
      cases hfamily
    | v6 lip lport lflow lscope =>
      have hv6 : ¬Linux.isV4Mapped (.v6 lip lport lflow lscope) = true := fun h => by
        have hip := (hmapped.mp h).2
        rw [hdst] at hip
        cases hip
      simp [getOriginalDest, Linux.getOriginalDest, hv6, hdest, context, Except.mapError, bind,
        Except.bind]

/-- The listen address is refused, and for any other the upstream proxy is asked. -/
theorem handleConnection_of_began (hbegan : Began flowinfo scopeId p localAddr sock)
    {config : Config} {proxy : UpstreamProxy} (hproxy : config.upstreamProxy = some proxy)
    (sni : SniOutcome) (table : DnsTable) (now : Instant) :
    handleConnection config (.linux sock) localAddr sni table now =
      if dialled flowinfo scopeId p = config.listenAddr then .error loopDetected
      else .ok ⟨proxy, dialled flowinfo scopeId p,
        hostnameFor config (dialled flowinfo scopeId p) sni table now⟩ := by
  simp only [handleConnection, getOriginalDest_of_began hbegan, checkLoop, hproxy]
  split_ifs <;> rfl

end Began

/-- After a setup that takes effect, for each TCP connection of the LAN that is no intercepted
query: which of them come to the listener, that all others that are passed on are passed on as
they are, and that a tunnel is asked for to the address that was dialled, under its own name or
that of a host found for it. -/
theorem interception_iff {env : Env} {config : Config} {proxy : UpstreamProxy} {host : Host}
    {net : Network} {own : NftFamily → IpAddr} {dual : Bool} {bound : SocketAddr}
    {trace : List (Cmd × Outcome)} {result : Except String Unit} {p : Packet}
    (hproxy : config.upstreamProxy = some proxy)
    (hown : ∀ f ip, interfaceIp f (getInterfaceIps env config.interface) = some ip →
      net.isLocal ip = true)
    (hruns : (setup (.fromConfig env config) (getInterfaceIps env config.interface)).Runs trace
      result)
    (heffective : host.Effective trace) (hp : LanArrival (.fromConfig env config) p)
    (htcp : p.proto = .tcp) (hdns : p.IsQuery → dnsTarget (.of p.dst) (.fromConfig env config)
      (getInterfaceIps env config.interface) = none) :
    (Served (host.after trace) net own dual bound p ↔
      p.Enters ∧ if selected (.fromConfig env config) net p = true then
          Takes dual bound (own (.of p.dst)) config.listenAddr.port
        else p.isMartian = false ∧ net.isLocal p.dst = true ∧ Takes dual bound p.dst p.dport) ∧
    (∀ q, (host.after trace).receive net p = .forwarded q ↔
      q = p ∧ selected (.fromConfig env config) net p = false ∧ p.isMartian = false ∧
        net.isLocal p.dst = false) ∧
    ∀ flowinfo scopeId localAddr sock, Began flowinfo scopeId p localAddr sock →
      ∀ sni table now, if dialled flowinfo scopeId p = config.listenAddr then
          handleConnection config (.linux sock) localAddr sni table now = .error loopDetected
        else ∃ call, handleConnection config (.linux sock) localAddr sni table now = .ok call ∧
          ∀ request, call.Sends request ↔ request =
            (namedHost (hostnameFor config (dialled flowinfo scopeId p) sni table now)).request
              (dialled flowinfo scopeId p) proxy.protocol := by
  obtain ⟨hforwarding, hrules⟩ := installed_of_effective hruns heffective (.of p.dst)
  refine ⟨served_iff hrules hown hp htcp hdns hforwarding,
    forwarded_iff hrules hown hp htcp hdns hforwarding, ?_⟩
  intro flowinfo scopeId localAddr sock hbegan sni table now
  have hcall := handleConnection_of_began hbegan hproxy sni table now
  split_ifs with hloop
  · rwa [if_pos hloop] at hcall
  · rw [if_neg hloop] at hcall
    refine ⟨_, hcall, fun request => ?_⟩
    rw [TunnelCall.sends_iff, TunnelCall.request_eq]

def sampleWeb (dst : IpAddr) : Packet :=
  { proto := .tcp, dst, dport := 443, iif := some "eth0", oif := none, mark := 0
    translation := none, socket := none }

def sampleInterface : NftFamily → IpAddr
  | .ip => .v4 (.new 192 168 1 1)
  | .ip6 => .v6 (.ofSegments [0x2001, 0xdb8, 0, 0, 0, 0, 0, 1])

def sampleV6 : IpAddr := .v6 (.ofSegments [0x2001, 0xdb8, 1, 0, 0, 0, 0, 7])

/-- Over IPv4 the upstream proxy is asked for the server. Over IPv6 the connection is redirected
to a port where nobody listens. -/
theorem interception_iff_sample : ∃ host,
    Served host sampleOwn sampleInterface false (.v4 .unspecified 8443) (sampleWeb sampleDest.ip) ∧
    (∃ call, handleConnection sampleHttp sampleRedirected (.v4 (.new 192 168 1 1) 8443) .absent ∅
        0 = .ok call ∧
      ∀ request, call.Sends request ↔
        request = RequestHost.address.request sampleDest .httpConnect) ∧
    ¬Served host sampleOwn sampleInterface false (.v4 .unspecified 8443) (sampleWeb sampleV6) ∧
    ∀ q, host.receive sampleOwn (sampleWeb sampleV6) ≠ .forwarded q := by
  let addrs := getInterfaceIps sampleLan sampleHttp.interface
  let cmds := setup (.fromConfig sampleLan sampleHttp) addrs
  have hruns := Script.runs_run (fun _ => Outcome.success) cmds
  have heffective : sampleHost.Effective (cmds.run fun _ => .success).1 :=
    Host.effective_of_success fun _ he => Script.mem_run he
  have hport : (443 : UInt16) ≠ 53 := by decide
  obtain ⟨hserved, _, hconnection⟩ := @interception_iff _ _ sampleProxy _ _ sampleInterface false
    (.v4 .unspecified 8443) _ _ (sampleWeb sampleDest.ip) rfl isLocal_sampleOwn hruns heffective
      ⟨rfl, rfl, rfl, rfl⟩ rfl fun h => absurd h.1 hport
  obtain ⟨hunserved, hforwarded, _⟩ := @interception_iff _ _ sampleProxy _ _ sampleInterface false
    (.v4 .unspecified 8443) _ _ (sampleWeb sampleV6) rfl isLocal_sampleOwn hruns heffective
      ⟨rfl, rfl, rfl, rfl⟩ rfl fun h => absurd h.1 hport
  refine ⟨_, hserved.mpr ?_, hconnection 0 0 (.v4 (.new 192 168 1 1) 8443)
    { originalDst := .ok (.new 198 51 100 7, 443), originalDst6 := .error "Protocol not available" }
    ⟨rfl, rfl⟩ .absent ∅ 0, fun h => ?_, fun q h => absurd ((hforwarded q).mp h).2.1 (by decide)⟩
  · rw [if_pos (by decide)]
    exact ⟨fun _ => by decide, rfl, by decide⟩
  · have htakes := (hunserved.mp h).2
    rw [if_pos (by decide)] at htakes
    exact absurd htakes.2 (by decide)

end TransProxy.Proxy
