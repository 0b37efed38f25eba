import TransProxy.Firewall.LanTraffic

/-!
# From the LAN to the DNS forwarder

The firewall sends queries to an address that it finds in the configuration and at the
interface, and the forwarder binds one that it finds there with a walk of its own. The queries
arrive if the two agree.
-/
namespace TransProxy.Firewall
open Library Net PacketFilter Config

/-- What sockets bound to an address take. The sockets of an unspecified IPv6 address take
packets of IPv4 too, unless the system keeps the families apart. -/
def Takes (dual : Bool) (listen : SocketAddr) (dst : IpAddr) (port : UInt16) : Prop :=
  port = listen.port ∧
    if (wireAddr listen.ip).isUnspecified then
      NftFamily.of dst = .of (wireAddr listen.ip) ∨ dual = true ∧ NftFamily.of dst = .ip
    else dst = wireAddr listen.ip

section Target
variable {fw : FirewallConfig} {addrs : InterfaceAddrs} {f : NftFamily} {listen : SocketAddr}
  {target : IpAddr × UInt16}

/-- Both families at once. -/
theorem dnsTarget_eq (hlisten : fw.dnsListen = some listen) : dnsTarget f fw addrs =
    (if listen.ip.isUnspecified then
      if NftFamily.of listen.ip = f ∨ f = .ip then interfaceIp f addrs else none
    else if NftFamily.of listen.ip = f then some listen.ip else none).map (·, listen.port) := by
  cases hip : listen.ip with
  | v4 bound =>
    rw [show (IpAddr.v4 bound).isUnspecified = decide (bound = .unspecified) from rfl]
    by_cases h : bound = .unspecified <;> cases f <;>
      simp [dnsTarget, FirewallConfig.dnsTargetV4, FirewallConfig.dnsTargetV6, hlisten, hip, h,
        NftFamily.of, interfaceIp, Function.comp_def]
  | v6 bound =>
    rw [show (IpAddr.v6 bound).isUnspecified = decide (bound = .unspecified) from rfl]
    by_cases h : bound = .unspecified <;> cases f <;>
      simp [dnsTarget, FirewallConfig.dnsTargetV4, FirewallConfig.dnsTargetV6, hlisten, hip, h,
        NftFamily.of, interfaceIp, Function.comp_def]

/-- There is a target where sockets of the listen address take packets of the family, at an
address that is known. -/
theorem dnsTarget_eq_some_iff (hlisten : fw.dnsListen = some listen)
    (hunmapped : wireAddr listen.ip = listen.ip) : dnsTarget f fw addrs = some target ↔
      NftFamily.of target.1 = f ∧ Takes true listen target.1 target.2 ∧
        (listen.ip.isUnspecified = true → interfaceIp f addrs = some target.1) := by
  obtain ⟨ip, port⟩ := target
  rw [dnsTarget_eq hlisten, Option.map_eq_some_iff, Takes, hunmapped]
  constructor
  · rintro ⟨ip', hip, heq⟩
    obtain ⟨rfl, rfl⟩ := Prod.mk.inj heq
    split_ifs at hip with hzero hfamily hfamily
    · rw [if_pos hzero]
      refine ⟨of_interfaceIp hip, ⟨rfl, ?_⟩, fun _ => hip⟩
      rw [of_interfaceIp hip]
      exact hfamily.imp Eq.symm fun h => ⟨rfl, h⟩
    · obtain rfl := Option.some.inj hip
      rw [if_neg hzero]
      exact ⟨hfamily, ⟨rfl, rfl⟩, fun h => absurd h hzero⟩
  · rintro ⟨rfl, ⟨rfl, htakes⟩, hknown⟩
    refine ⟨ip, ?_, rfl⟩
    split_ifs at htakes ⊢ with hzero hfamily hfamily
    · exact hknown hzero
    · exact absurd (htakes.imp Eq.symm And.right) hfamily
    · exact congrArg some htakes.symm
    · exact absurd (congrArg NftFamily.of htakes).symm hfamily

theorem Takes.dual {dual : Bool} {dst : IpAddr} {port : UInt16} (h : Takes dual listen dst port) :
    Takes true listen dst port := by
  obtain ⟨hport, htakes⟩ := h
  refine ⟨hport, ?_⟩
  split_ifs at htakes ⊢
  · exact htakes.imp_right fun h => ⟨rfl, h.2⟩
  · exact htakes

end Target

/-- The host takes the query for itself, at an address where the sockets take it. -/
def Delivered (host : Host) (net : Network) (dual : Bool) (listen : SocketAddr) (p : Packet) :
    Prop :=
  ∃ q, host.receive net p = .local q ∧ q.isRedirected = false ∧ Takes dual listen q.dst q.dport

/-- The addresses that the interface has, and the one that the forwarder was given, are the
host's own. -/
structure OwnAddrs (net : Network) (env : Env) (config : Config) : Prop where
  given : ∀ listen, config.dnsListen = some listen → listen.ip.isUnspecified = false →
    net.isLocal listen.ip = true
  found : ∀ f ip, interfaceIp f (getInterfaceIps env config.interface) = some ip →
    net.isLocal ip = true

theorem ip_new (ip : IpAddr) (port : UInt16) : (SocketAddr.new ip port).ip = ip := by
  cases ip <;> rfl

/-- A listen address that was not given was found at the interface, where the firewall finds it
too. -/
theorem OwnAddrs.isLocal {net : Network} {env : Env} {config : Config} {listen : SocketAddr}
    (h : OwnAddrs net env config) (hlisten : config.resolveDnsListen env = some listen)
    (hspecific : listen.ip.isUnspecified = false) : net.isLocal listen.ip = true := by
  unfold resolveDnsListen at hlisten
  cases hgiven : config.dnsListen with
  | some given =>
    rw [hgiven] at hlisten
    obtain rfl := Option.some.inj hlisten
    exact h.given given hgiven hspecific
  | none =>
    simp only [hgiven, Option.ite_none_right_eq_some, Option.some.injEq, getInterfaceIp_eq]
      at hlisten
    obtain ⟨_, rfl⟩ := hlisten
    rw [ip_new] at hspecific ⊢
    cases hv4 : interfaceIp .ip (getInterfaceIps env config.interface) with
    | some ip => exact h.found _ ip hv4
    | none =>
      cases hv6 : interfaceIp .ip6 (getInterfaceIps env config.interface) with
      | some ip => exact h.found _ ip hv6
      | none =>
        rw [hv4, hv6] at hspecific
        exact absurd hspecific (by decide)

/-- Where the rules send queries of a family, the sockets take them, and the host does. -/
def Reaches (net : Network) (fw : FirewallConfig) (addrs : InterfaceAddrs) (dual : Bool)
    (listen : SocketAddr) (p : Packet) : Prop :=
  (∃ ip, NftFamily.of ip = .of p.dst ∧ Takes dual listen ip listen.port ∧
    (p.dnatTo (ip, listen.port)).isMartian = false ∧
      (listen.ip.isUnspecified = true → interfaceIp (.of p.dst) addrs = some ip)) ∨
  dnsTarget (.of p.dst) fw addrs = none ∧ ¬(p.proto = .tcp ∧ selected fw net p = true) ∧
    p.isMartian = false ∧ net.isLocal p.dst = true ∧ Takes dual listen p.dst p.dport

section Queries
variable {host : Host} {net : Network} {env : Env} {config : Config} {listen : SocketAddr}
  {dual : Bool} {p : Packet} {target : IpAddr × UInt16}

theorem isLocal_target (hown : OwnAddrs net env config)
    (hlisten : config.resolveDnsListen env = some listen)
    (hunmapped : wireAddr listen.ip = listen.ip)
    (htarget : dnsTarget (.of p.dst) (.fromConfig env config)
      (getInterfaceIps env config.interface) = some target) : net.isLocal target.1 = true := by
  have hdns : (FirewallConfig.fromConfig env config).dnsListen = some listen := hlisten
  obtain ⟨_, htakes, hknown⟩ := (dnsTarget_eq_some_iff hdns hunmapped).mp htarget
  cases hzero : listen.ip.isUnspecified with
  | true => exact hown.found _ _ (hknown hzero)
  | false =>
    have haddr := htakes.2
    rw [hunmapped, if_neg (by simp [hzero])] at haddr
    rw [haddr]
    exact hown.isLocal hlisten hzero

theorem not_delivered_of_martian (h : host.receive net p = .martian) :
    ¬Delivered host net dual listen p := by
  rintro ⟨q, hq, _⟩
  rw [h] at hq
  cases hq

theorem delivered_of_local {q : Packet} (h : host.receive net p = .local q) :
    Delivered host net dual listen p ↔ q.isRedirected = false ∧ Takes dual listen q.dst q.dport := by
  rw [Delivered, h]
  constructor
  · rintro ⟨q', hq, hdelivered⟩
    obtain rfl := Host.Delivery.local.inj hq
    exact hdelivered
  · exact fun hdelivered => ⟨q, rfl, hdelivered⟩

/-- With a target, that is the address in question. -/
theorem reaches_of_target {fw : FirewallConfig} {addrs : InterfaceAddrs}
    (hlisten : fw.dnsListen = some listen) (hunmapped : wireAddr listen.ip = listen.ip)
    (htarget : dnsTarget (.of p.dst) fw addrs = some target) :
    Reaches net fw addrs dual listen p ↔
      Takes dual listen target.1 target.2 ∧ (p.dnatTo target).isMartian = false := by
  obtain ⟨hfamily, htakes, hknown⟩ := (dnsTarget_eq_some_iff hlisten hunmapped).mp htarget
  constructor
  · rintro (⟨ip, hf, hip, hmartian, hfound⟩ | ⟨hnone, _⟩)
    · have hsame : dnsTarget (.of p.dst) fw addrs = some (ip, listen.port) :=
        (dnsTarget_eq_some_iff hlisten hunmapped).mpr ⟨hf, hip.dual, hfound⟩
      obtain rfl := Option.some.inj (htarget.symm.trans hsame)
      exact ⟨hip, hmartian⟩
    · rw [htarget] at hnone
      cases hnone
  · rintro ⟨htakes', hmartian⟩
    obtain ⟨ip, port⟩ := target
    obtain rfl : port = listen.port := htakes'.1
    exact .inl ⟨ip, hfamily, htakes', hmartian, hknown⟩

/-- Without one, only a query for the gateway itself can get there. -/
theorem reaches_of_no_target {fw : FirewallConfig} {addrs : InterfaceAddrs}
    (hlisten : fw.dnsListen = some listen) (hunmapped : wireAddr listen.ip = listen.ip)
    (htarget : dnsTarget (.of p.dst) fw addrs = none) :
    Reaches net fw addrs dual listen p ↔ ¬(p.proto = .tcp ∧ selected fw net p = true) ∧
      p.isMartian = false ∧ net.isLocal p.dst = true ∧ Takes dual listen p.dst p.dport := by
  refine ⟨?_, fun h => .inr ⟨htarget, h⟩⟩
  rintro (⟨ip, hf, hip, _, hfound⟩ | ⟨_, h⟩)
  · have hsome : dnsTarget (.of p.dst) fw addrs = some (ip, listen.port) :=
      (dnsTarget_eq_some_iff hlisten hunmapped).mpr ⟨hf, hip.dual, hfound⟩
    rw [htarget] at hsome
    cases hsome
  · exact h

/-- A packet that is not sent to an address stays what it was, or it is taken to the proxy. -/
theorem undirected_of_no_target {fw : FirewallConfig} {addrs : InterfaceAddrs} {q : Packet}
    (hrules : ∀ d, host.rules (.of p.dst) d =
      natRules (.of p.dst) fw addrs d ++ udpRules fw (quicStrategy fw) d)
    (hown : ∀ f ip, interfaceIp f addrs = some ip → net.isLocal ip = true)
    (htarget : dnsTarget (.of p.dst) fw addrs = none) (hp : LanArrival fw p)
    (hq : host.hook net .prerouting p = some q) : q.Undirected := by
  rw [hook_prerouting hrules hp hown fun _ => htarget] at hq
  obtain rfl := Option.some.inj hq
  unfold Packet.Undirected
  split_ifs <;> simp [assigned, redirected, hp.translation]

end Queries

/-- The forwarder binds the IPv6 wildcard. -/
def sampleWildcard : Config := { sampleHttp with dnsListen := some (.v6 .unspecified 53 0 0) }

end TransProxy.Firewall
