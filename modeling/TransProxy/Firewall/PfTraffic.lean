import TransProxy.Firewall.OwnTraffic
import TransProxy.Firewall.Pf
import TransProxy.Firewall.QuicLeak

/-!
# What the anchor does to packets

Translation and filtering by the anchor as a whole, in terms of the configuration, and which
traffic it treats as it should.
-/
namespace TransProxy.Firewall
open Library Net PacketFilter

section
variable (fw : FirewallConfig) (addrs : InterfaceAddrs) (p : PfPacket)

/-! ## Translation -/

def InScope (port : UInt16) : Prop := ∀ ports, fw.ports = some ports → port ∈ ports

/-- A packet on the loopback interface to the upstream proxy, or to the port of the
listener. -/
def PfExempt : Prop :=
  p.iface = "lo0" ∧ p.proto = .tcp ∧ ∃ upstream, fw.upstreamAddr = some upstream ∧
    (p.dst = upstream.ip ∧ p.dport = upstream.port ∨ p.dport = fw.proxyPort)

def PfDns : Prop :=
  p.iface = fw.interface ∧ (p.proto = .udp ∨ p.proto = .tcp) ∧ p.dport = 53

def PfForGateway : Prop :=
  p.iface = fw.interface ∧ p.proto = .tcp ∧ interfaceIp (.of p.dst) addrs = some p.dst ∧
    InScope fw p.dport

/-- TCP that is redirected where no rule before says otherwise. -/
def PfRedirected : Prop :=
  (p.iface = fw.interface ∨ p.iface = "lo0" ∧ fw.upstreamAddr.isSome) ∧ p.proto = .tcp ∧
    InScope fw p.dport

end

section
variable {fw : FirewallConfig} {addrs : InterfaceAddrs} {p : PfPacket} {m : PfMatch}
  {f : NftFamily} {target : Option (IpAddr × UInt16)}

/-- A rule for one address, which is of the family of the rule. -/
theorem holds_dest_iff {iface : String} {family : Option NftFamily} {t : Transport} {ip : IpAddr}
    {ports : PfPorts} (hfamily : ∀ f, family = some f → f = .of ip) :
    PfMatch.holds ⟨iface, family, t, some ip, ports⟩ p = true ↔
      p.iface = iface ∧ p.proto = t.proto ∧ p.dst = ip ∧ ports.has p.dport = true := by
  simp only [PfMatch.holds, Bool.and_eq_true, beq_iff_eq, Option.all_eq_true, Option.some.injEq,
    forall_eq']
  constructor
  · rintro ⟨⟨⟨⟨hiface, _⟩, hproto⟩, hdst⟩, hports⟩
    exact ⟨hiface, hproto, hdst.symm, hports⟩
  · rintro ⟨hiface, hproto, rfl, hports⟩
    exact ⟨⟨⟨⟨hiface, hfamily⟩, hproto⟩, rfl⟩, hports⟩

theorem holds_any_iff {iface : String} {t : Transport} {ports : PfPorts} :
    PfMatch.holds ⟨iface, some f, t, none, ports⟩ p = true ↔
      p.iface = iface ∧ .of p.dst = f ∧ p.proto = t.proto ∧ ports.has p.dport = true := by
  simp [PfMatch.holds, and_assoc, eq_comm (a := f)]

theorem portFilter_has (port : UInt16) : (portFilter fw).has port = true ↔ InScope fw port := by
  unfold portFilter InScope
  cases fw.ports with
  | none => simp [PfPorts.has]
  | some ports => simp [PfPorts.has]

theorem one_has (port port' : UInt16) : (PfPorts.one port').has port = true ↔ port = port' := by
  simp [PfPorts.has]

theorem translation_noRdr_cases :
    PfRule.translation p (.noRdr m) = none ∨ PfRule.translation p (.noRdr m) = some none := by
  by_cases h : m.holds p = true
  · exact .inr (if_pos h)
  · exact .inl (if_neg h)

theorem translation_noRdr : PfRule.translation p (.noRdr m) = some none ↔ m.holds p = true := by
  simp [PfRule.translation]

theorem translation_rdr {ip : IpAddr} {port : UInt16} :
    PfRule.translation p (.rdr m ip port) = some target ↔
      m.holds p = true ∧ some (ip, port) = target := by
  simp [PfRule.translation]

theorem of_eq_or : NftFamily.of p.dst = .ip ∨ NftFamily.of p.dst = .ip6 := by
  cases p.dst
  · exact .inl rfl
  · exact .inr rfl

open Classical in
theorem findSome?_upstreamNoRdr {upstream : SocketAddr} (h : fw.upstreamAddr = some upstream) :
    (upstreamNoRdr fw upstream).findSome? (PfRule.translation p) =
      if PfExempt fw p then some none else none := by
  apply findSome?_eq_ite
  · simp [upstreamNoRdr, translation_noRdr_cases]
  · have hdest : ∀ f, some (NftFamily.of upstream.ip) = some f → f = .of upstream.ip := by
      rintro f ⟨⟩
      rfl
    simp only [upstreamNoRdr, List.mem_cons, List.not_mem_nil, or_false, exists_eq_or_imp,
      exists_eq_left, translation_noRdr, holds_dest_iff hdest, holds_any_iff, one_has, PfExempt, h]
    rcases of_eq_or (p := p) with hf | hf <;> simp [hf, Transport.proto] <;> tauto

theorem dnsTarget_of_not_listening (h : fw.dnsListen = none) : dnsTarget f fw addrs = none := by
  cases f <;> simp [dnsTarget, FirewallConfig.dnsTargetV4, FirewallConfig.dnsTargetV6, h]

theorem of_interfaceIp {ip : IpAddr} (h : interfaceIp f addrs = some ip) : NftFamily.of ip = f := by
  cases f with
  | ip =>
    obtain ⟨ip4, _, rfl⟩ := Option.map_eq_some_iff.mp h
    rfl
  | ip6 =>
    obtain ⟨ip6, _, rfl⟩ := Option.map_eq_some_iff.mp h
    rfl

theorem mem_dnsRdr {rule : PfRule} : rule ∈ dnsRdr fw addrs ↔ ∃ f t ip port,
    dnsTarget f fw addrs = some (ip, port) ∧
      rule = .rdr ⟨fw.interface, some f, t, none, .one 53⟩ ip port := by
  have hfor : ∀ f, rule ∈ dnsRdrFor fw addrs f ↔ ∃ t ip port,
      dnsTarget f fw addrs = some (ip, port) ∧
        rule = .rdr ⟨fw.interface, some f, t, none, .one 53⟩ ip port := by
    intro f
    unfold dnsRdrFor
    cases h : dnsTarget f fw addrs with
    | none => simp
    | some target =>
      simp only [List.mem_cons, List.not_mem_nil, or_false, Option.some.injEq]
      constructor
      · rintro (rfl | rfl)
        · exact ⟨.udp, _, _, rfl, rfl⟩
        · exact ⟨.tcp, _, _, rfl, rfl⟩
      · rintro ⟨t, ip, port, rfl, rfl⟩
        cases t
        · exact .inr rfl
        · exact .inl rfl
  unfold dnsRdr
  cases hlisten : fw.dnsListen with
  | none => simp [dnsTarget_of_not_listening hlisten]
  | some listen =>
    rw [Option.isSome_some, if_pos rfl, List.mem_append, hfor, hfor]
    constructor
    · rintro (h | h)
      · exact ⟨.ip, h⟩
      · exact ⟨.ip6, h⟩
    · rintro ⟨f, h⟩
      cases f
      · exact .inl h
      · exact .inr h

open Classical in
theorem findSome?_dnsRdr : (dnsRdr fw addrs).findSome? (PfRule.translation p) =
    if PfDns fw p ∧ (dnsTarget (.of p.dst) fw addrs).isSome then
      some (dnsTarget (.of p.dst) fw addrs)
    else none := by
  apply findSome?_eq_ite
  · intro rule hrule
    obtain ⟨f, t, ip, port, htarget, rfl⟩ := mem_dnsRdr.mp hrule
    rw [translation_rdr, holds_any_iff]
    by_cases hf : .of p.dst = f
    · subst hf
      rw [htarget, PfRule.translation]
      split_ifs with hholds
      · exact .inr ⟨holds_any_iff.mp hholds, rfl⟩
      · exact .inl rfl
    · left
      exact if_neg fun hholds => hf (holds_any_iff.mp hholds).2.1
  · constructor
    · rintro ⟨rule, hrule, hdecides⟩
      obtain ⟨f, t, ip, port, htarget, rfl⟩ := mem_dnsRdr.mp hrule
      obtain ⟨hholds, hsome⟩ := translation_rdr.mp hdecides
      obtain ⟨hiface, rfl, hproto, hport⟩ := holds_any_iff.mp hholds
      refine ⟨⟨hiface, ?_, (one_has _ _).mp hport⟩, by simp [htarget]⟩
      cases t
      · exact .inr hproto
      · exact .inl hproto
    · rintro ⟨⟨hiface, hproto, hport⟩, hsome⟩
      obtain ⟨⟨ip, port⟩, htarget⟩ := Option.isSome_iff_exists.mp hsome
      obtain ⟨t, ht⟩ : ∃ t : Transport, p.proto = t.proto := by
        rcases hproto with hudp | htcp
        · exact ⟨.udp, hudp⟩
        · exact ⟨.tcp, htcp⟩
      refine ⟨_, mem_dnsRdr.mpr ⟨.of p.dst, t, ip, port, htarget, rfl⟩, ?_⟩
      rw [translation_rdr, holds_any_iff, one_has, htarget]
      exact ⟨⟨hiface, rfl, ht, hport⟩, rfl⟩

theorem mem_localNoRdr {rule : PfRule} : rule ∈ localNoRdr fw addrs ↔ ∃ f ip,
    interfaceIp f addrs = some ip ∧
      rule = .noRdr ⟨fw.interface, some f, .tcp, some ip, portFilter fw⟩ := by
  have hfor : ∀ f, rule ∈ localNoRdrFor fw addrs f ↔ ∃ ip, interfaceIp f addrs = some ip ∧
      rule = .noRdr ⟨fw.interface, some f, .tcp, some ip, portFilter fw⟩ := by
    intro f
    unfold localNoRdrFor
    cases interfaceIp f addrs <;> simp
  rw [localNoRdr, List.mem_append, hfor, hfor]
  constructor
  · rintro (h | h)
    · exact ⟨.ip, h⟩
    · exact ⟨.ip6, h⟩
  · rintro ⟨f, h⟩
    cases f
    · exact .inl h
    · exact .inr h

open Classical in
theorem findSome?_localNoRdr : (localNoRdr fw addrs).findSome? (PfRule.translation p) =
    if PfForGateway fw addrs p then some none else none := by
  have hholds : ∀ {f ip}, interfaceIp f addrs = some ip →
      (PfMatch.holds ⟨fw.interface, some f, .tcp, some ip, portFilter fw⟩ p = true ↔
        p.iface = fw.interface ∧ p.proto = .tcp ∧ p.dst = ip ∧ InScope fw p.dport) := by
    intro f ip hip
    rw [holds_dest_iff, portFilter_has]
    · rfl
    · rintro g ⟨⟩
      exact (of_interfaceIp hip).symm
  apply findSome?_eq_ite
  · intro rule hrule
    obtain ⟨f, ip, _, rfl⟩ := mem_localNoRdr.mp hrule
    exact translation_noRdr_cases
  · constructor
    · rintro ⟨rule, hrule, hdecides⟩
      obtain ⟨f, ip, hip, rfl⟩ := mem_localNoRdr.mp hrule
      obtain ⟨hiface, htcp, rfl, hport⟩ := (hholds hip).mp (translation_noRdr.mp hdecides)
      refine ⟨hiface, htcp, ?_, hport⟩
      rw [of_interfaceIp hip, hip]
    · rintro ⟨hiface, htcp, hip, hport⟩
      refine ⟨_, mem_localNoRdr.mpr ⟨_, _, hip, rfl⟩, ?_⟩
      exact translation_noRdr.mpr ((hholds hip).mpr ⟨hiface, htcp, rfl, hport⟩)

open Classical in
theorem findSome?_tcpRdr {rules : List PfRule} {ifaces : List String}
    (hrules : ∀ rule, rule ∈ rules ↔ ∃ iface ∈ ifaces, ∃ f, rule = tcpRdr fw iface f) :
    rules.findSome? (PfRule.translation p) =
      if p.iface ∈ ifaces ∧ p.proto = .tcp ∧ InScope fw p.dport then
        some (some (pfLoopback (.of p.dst), fw.proxyPort))
      else none := by
  have hdecides : ∀ {iface f target}, PfRule.translation p (tcpRdr fw iface f) = some target ↔
      (p.iface = iface ∧ .of p.dst = f ∧ p.proto = .tcp ∧ InScope fw p.dport) ∧
        some (pfLoopback f, fw.proxyPort) = target := by
    intro iface f target
    rw [tcpRdr, translation_rdr, holds_any_iff, portFilter_has]
    rfl
  apply findSome?_eq_ite
  · intro rule hrule
    obtain ⟨iface, _, f, rfl⟩ := (hrules rule).mp hrule
    rw [hdecides]
    cases hdecision : PfRule.translation p (tcpRdr fw iface f) with
    | none => exact .inl rfl
    | some target =>
      obtain ⟨⟨hiface, hf, hproto, hport⟩, _⟩ := hdecides.mp hdecision
      exact .inr ⟨⟨hiface, hf, hproto, hport⟩, by rw [hf]⟩
  · constructor
    · rintro ⟨rule, hrule, hdecision⟩
      obtain ⟨iface, hiface, f, rfl⟩ := (hrules rule).mp hrule
      obtain ⟨⟨rfl, _, hproto, hport⟩, _⟩ := hdecides.mp hdecision
      exact ⟨hiface, hproto, hport⟩
    · rintro ⟨hiface, hproto, hport⟩
      exact ⟨_, (hrules _).mpr ⟨_, hiface, _, rfl⟩, hdecides.mpr ⟨⟨rfl, rfl, hproto, hport⟩, rfl⟩⟩

/-- The rules that translate nothing. -/
theorem findSome?_of_filter {rules : List PfRule} (h : ∀ rule ∈ rules, rule.isTranslation = false) :
    rules.findSome? (PfRule.translation p) = none := by
  rw [List.findSome?_eq_none_iff]
  intro rule hrule
  have hkind := h rule hrule
  cases rule <;> simp_all [PfRule.translation, PfRule.isTranslation]

/-! ## Which rules there are -/

theorem isTranslation_dnsRdr : ∀ rule ∈ dnsRdr fw addrs, rule.isTranslation = true := by
  intro rule hrule
  obtain ⟨_, _, _, _, _, rfl⟩ := mem_dnsRdr.mp hrule
  rfl

theorem isTranslation_localNoRdr : ∀ rule ∈ localNoRdr fw addrs, rule.isTranslation = true := by
  intro rule hrule
  obtain ⟨_, _, _, rfl⟩ := mem_localNoRdr.mp hrule
  rfl

theorem isTranslation_quicBlock : ∀ rule ∈ quicBlock fw, rule.isTranslation = false := by
  unfold quicBlock
  split_ifs <;> simp [PfRule.isTranslation]

variable (fw addrs) in
def translationRules : List PfRule :=
  fw.upstreamAddr.elim [] (upstreamNoRdr fw) ++ dnsRdr fw addrs ++ localNoRdr fw addrs ++
    match fw.upstreamAddr with
    | some _ => [tcpRdr fw fw.interface .ip, tcpRdr fw "lo0" .ip, tcpRdr fw fw.interface .ip6,
        tcpRdr fw "lo0" .ip6]
    | none => [tcpRdr fw fw.interface .ip, tcpRdr fw fw.interface .ip6]

variable (fw) in
def filterRules : List PfRule :=
  quicBlock fw ++
    match fw.upstreamAddr with
    | some upstream =>
      [.passOutQuick ⟨fw.interface, none, .tcp, some upstream.ip, .one upstream.port⟩,
        routeTo fw .ip, routeTo fw .ip6]
    | none => []

theorem buildRules_eq : buildRules fw addrs = translationRules fw addrs ++ filterRules fw := by
  unfold buildRules translationRules filterRules
  cases fw.upstreamAddr <;> simp

theorem isTranslation_translationRules :
    ∀ rule ∈ translationRules fw addrs, rule.isTranslation = true := by
  unfold translationRules
  simp only [List.forall_mem_append]
  refine ⟨⟨⟨?_, isTranslation_dnsRdr⟩, isTranslation_localNoRdr⟩, ?_⟩
  · cases fw.upstreamAddr <;> simp [upstreamNoRdr, PfRule.isTranslation]
  · cases fw.upstreamAddr <;> simp [tcpRdr, PfRule.isTranslation]

theorem isTranslation_filterRules : ∀ rule ∈ filterRules fw, rule.isTranslation = false := by
  unfold filterRules
  simp only [List.forall_mem_append]
  refine ⟨isTranslation_quicBlock, ?_⟩
  cases fw.upstreamAddr <;> simp [routeTo, PfRule.isTranslation]

open Classical in
theorem findSome?_exemptions : (fw.upstreamAddr.elim [] (upstreamNoRdr fw)).findSome?
    (PfRule.translation p) = if PfExempt fw p then some none else none := by
  cases hupstream : fw.upstreamAddr with
  | none => simp [PfExempt, hupstream]
  | some upstream => exact findSome?_upstreamNoRdr hupstream

open Classical in
theorem findSome?_redirects : List.findSome? (PfRule.translation p)
    (match fw.upstreamAddr with
      | some _ => [tcpRdr fw fw.interface .ip, tcpRdr fw "lo0" .ip, tcpRdr fw fw.interface .ip6,
          tcpRdr fw "lo0" .ip6]
      | none => [tcpRdr fw fw.interface .ip, tcpRdr fw fw.interface .ip6]) =
    if PfRedirected fw p then some (some (pfLoopback (.of p.dst), fw.proxyPort)) else none := by
  cases hupstream : fw.upstreamAddr with
  | none =>
    have hrules : ∀ rule, rule ∈ [tcpRdr fw fw.interface .ip, tcpRdr fw fw.interface .ip6] ↔
        ∃ iface ∈ [fw.interface], ∃ f, rule = tcpRdr fw iface f := by
      intro rule
      simp only [List.mem_cons, List.not_mem_nil, or_false, exists_eq_left]
      exact ⟨fun h => h.elim (⟨.ip, ·⟩) (⟨.ip6, ·⟩), fun ⟨f, h⟩ => by cases f <;> simp [h]⟩
    rw [findSome?_tcpRdr hrules]
    simp [PfRedirected, hupstream]
  | some upstream =>
    have hrules : ∀ rule, rule ∈ [tcpRdr fw fw.interface .ip, tcpRdr fw "lo0" .ip,
        tcpRdr fw fw.interface .ip6, tcpRdr fw "lo0" .ip6] ↔
        ∃ iface ∈ [fw.interface, "lo0"], ∃ f, rule = tcpRdr fw iface f := by
      intro rule
      simp only [List.mem_cons, List.not_mem_nil, or_false, exists_eq_or_imp, exists_eq_left]
      constructor
      · rintro (h | h | h | h)
        · exact .inl ⟨.ip, h⟩
        · exact .inr ⟨.ip, h⟩
        · exact .inl ⟨.ip6, h⟩
        · exact .inr ⟨.ip6, h⟩
      · rintro (⟨f, rfl⟩ | ⟨f, rfl⟩) <;> cases f <;> simp
    rw [findSome?_tcpRdr hrules]
    simp [PfRedirected, hupstream]

open Classical in
/-- The translation of a packet from the network. -/
theorem pfTranslate_buildRules (hin : p.inbound = true) : pfTranslate (buildRules fw addrs) p =
    if PfExempt fw p then none
    else if PfDns fw p ∧ (dnsTarget (.of p.dst) fw addrs).isSome then
      dnsTarget (.of p.dst) fw addrs
    else if PfForGateway fw addrs p then none
    else if PfRedirected fw p then some (pfLoopback (.of p.dst), fw.proxyPort)
    else none := by
  rw [pfTranslate, if_pos hin, buildRules_eq, translationRules, List.findSome?_append,
    findSome?_of_filter isTranslation_filterRules, Option.or_none, List.findSome?_append,
    List.findSome?_append, List.findSome?_append, findSome?_dnsRdr, findSome?_localNoRdr,
    findSome?_exemptions, findSome?_redirects]
  split_ifs <;> simp

theorem pfTranslate_outbound (hout : p.inbound = false) :
    pfTranslate (buildRules fw addrs) p = none := by
  simp [pfTranslate, hout]

/-! ## Filtering -/

def PfQuic (fw : FirewallConfig) (p : PfPacket) : Prop :=
  p.iface = fw.interface ∧ p.proto = .udp ∧ p.dport ∈ fw.quicBlockPorts

theorem decision_of_translation {rules : List PfRule}
    (h : ∀ rule ∈ rules, rule.isTranslation = true) :
    ∀ rule ∈ rules, PfRule.decision p rule = none := by
  intro rule hrule
  have hkind := h rule hrule
  cases rule <;> simp_all [PfRule.decision, PfRule.isTranslation]

theorem pfFilter_buildRules : pfFilter (buildRules fw addrs) p = pfFilter (filterRules fw) p := by
  rw [pfFilter, pfFilter, buildRules_eq,
    lastMatch_append_of_none (decision_of_translation isTranslation_translationRules)]

theorem pfFilter_of_quic (h : PfQuic fw p) : pfFilter (buildRules fw addrs) p = .block := by
  obtain ⟨hiface, hudp, hport⟩ := h
  have hsome : fw.quicBlockPorts ≠ [] := List.ne_nil_of_mem hport
  rw [pfFilter_buildRules, filterRules, quicBlock, if_neg hsome, List.singleton_append, pfFilter,
    lastMatch_cons_of_quick]
  · rfl
  · simp [PfRule.decision, PfMatch.holds, Transport.proto, PfPorts.has, hiface, hudp, hport]

theorem decision_quicBlock (h : ¬PfQuic fw p) :
    ∀ rule ∈ quicBlock fw, PfRule.decision p rule = none := by
  unfold quicBlock
  split_ifs
  · simp
  · rw [List.forall_mem_singleton]
    refine if_neg fun hholds => h ?_
    simpa [PfMatch.holds, Transport.proto, PfPorts.has, PfQuic, and_assoc] using hholds

/-- What the filter rules ask beyond QUIC: only those of the upstream proxy are left. -/
theorem pfFilter_of_not_quic (h : ¬PfQuic fw p) : pfFilter (buildRules fw addrs) p =
    pfFilter (match fw.upstreamAddr with
      | some upstream =>
        [.passOutQuick ⟨fw.interface, none, .tcp, some upstream.ip, .one upstream.port⟩,
          routeTo fw .ip, routeTo fw .ip6]
      | none => []) p := by
  rw [pfFilter_buildRules, pfFilter, pfFilter, filterRules,
    lastMatch_append_of_none (decision_quicBlock h)]

theorem pfFilter_of_inbound (hin : p.inbound = true) (h : ¬PfQuic fw p) :
    pfFilter (buildRules fw addrs) p = .pass := by
  rw [pfFilter_of_not_quic h]
  cases fw.upstreamAddr with
  | none => rfl
  | some upstream => simp [pfFilter, lastMatch, PfRule.decision, routeTo, hin]

theorem decision_routeTo (hout : p.inbound = false) : PfRule.decision p (routeTo fw f) =
    if PfMatch.holds ⟨fw.interface, some f, .tcp, none, portFilter fw⟩ p then
      some (false, .routeTo (pfLoopback f))
    else none := by
  simp [routeTo, PfRule.decision, hout]

/-- Local connections are sent back to the machine, up to those to the upstream proxy. -/
theorem pfFilter_routeTo_iff (htcp : p.proto = .tcp) (hout : p.inbound = false) :
    (∃ gateway, pfFilter (buildRules fw addrs) p = .routeTo gateway) ↔
      p.iface = fw.interface ∧ InScope fw p.dport ∧ ∃ upstream, fw.upstreamAddr = some upstream ∧
        ¬(p.dst = upstream.ip ∧ p.dport = upstream.port) := by
  have hquic : ¬PfQuic fw p := by simp [PfQuic, htcp]
  rw [pfFilter_of_not_quic hquic]
  cases fw.upstreamAddr with
  | none => simp [pfFilter, lastMatch]
  | some upstream =>
    have hquick : PfRule.decision p
        (.passOutQuick ⟨fw.interface, none, .tcp, some upstream.ip, .one upstream.port⟩) =
        if p.iface = fw.interface ∧ p.dst = upstream.ip ∧ p.dport = upstream.port then
          some (true, .pass) else none := by
      have hholds : PfMatch.holds
          ⟨fw.interface, none, .tcp, some upstream.ip, .one upstream.port⟩ p = true ↔
          p.iface = fw.interface ∧ p.proto = .tcp ∧ p.dst = upstream.ip ∧
            (PfPorts.one upstream.port).has p.dport = true := by
        apply holds_dest_iff
        intro f hf
        cases hf
      simp only [PfRule.decision, hout, Bool.not_false, Bool.true_and, hholds, one_has, htcp,
        true_and]
    have hback : ∀ g, PfMatch.holds ⟨fw.interface, some g, .tcp, none, portFilter fw⟩ p = true ↔
        NftFamily.of p.dst = g ∧ p.iface = fw.interface ∧ InScope fw p.dport := by
      intro g
      rw [holds_any_iff, portFilter_has]
      simp [htcp, Transport.proto, and_left_comm]
    by_cases hexempt : p.iface = fw.interface ∧ p.dst = upstream.ip ∧ p.dport = upstream.port
    · rw [if_pos hexempt] at hquick
      simp [pfFilter, lastMatch, hquick, hexempt]
    · rw [if_neg hexempt] at hquick
      by_cases hscope : p.iface = fw.interface ∧ InScope fw p.dport
      · have hfound : ∃ gateway, pfFilter
            [.passOutQuick ⟨fw.interface, none, .tcp, some upstream.ip, .one upstream.port⟩,
              routeTo fw .ip, routeTo fw .ip6] p = .routeTo gateway := by
          rcases of_eq_or (p := p) with hf | hf <;>
            simp [pfFilter, lastMatch, hquick, decision_routeTo hout, hback, hf, hscope]
        refine iff_of_true hfound ⟨hscope.1, hscope.2, upstream, rfl, ?_⟩
        exact fun heq => hexempt ⟨hscope.1, heq⟩
      · have hnone : pfFilter
            [.passOutQuick ⟨fw.interface, none, .tcp, some upstream.ip, .one upstream.port⟩,
              routeTo fw .ip, routeTo fw .ip6] p = .pass := by
          simp [pfFilter, lastMatch, hquick, decision_routeTo hout, hback, hscope]
        refine iff_of_false ?_ ?_
        · rw [hnone]
          rintro ⟨_, ⟨⟩⟩
        · rintro ⟨hiface, hport, _⟩
          exact hscope ⟨hiface, hport⟩

/-! ## Traffic that is treated as it should be -/

def PfToUpstream (fw : FirewallConfig) (p : PfPacket) : Prop :=
  p.proto = .tcp ∧ ∃ upstream, fw.upstreamAddr = some upstream ∧ p.dst = wireAddr upstream.ip ∧
    p.dport = upstream.port

def PfTcpArrival (fw : FirewallConfig) (p : PfPacket) : Prop :=
  p.inbound = true ∧ p.iface = fw.interface ∧ p.proto = .tcp

def PfInterceptsDns (fw : FirewallConfig) (addrs : InterfaceAddrs) (p : PfPacket) : Prop :=
  p.dport = 53 ∧ (dnsTarget (.of p.dst) fw addrs).isSome

/-- What the anchor is to do. -/
structure PfTreats (fw : FirewallConfig) (addrs : InterfaceAddrs) : Prop where
  order : ∃ translations filters, buildRules fw addrs = translations ++ filters ∧
    (∀ rule ∈ translations, rule.isTranslation = true) ∧
      ∀ rule ∈ filters, rule.isTranslation = false
  upstream : ∀ p, PfToUpstream fw p →
    (p.inbound = true → p.iface = "lo0" → pfTranslate (buildRules fw addrs) p = none) ∧
      (p.inbound = false → ∀ gateway, pfVerdict (buildRules fw addrs) p ≠ .routeTo gateway)
  gateway : ∀ p, PfTcpArrival fw p → interfaceIp (.of p.dst) addrs = some p.dst →
    pfTranslate (buildRules fw addrs) p ≠ some (pfLoopback (.of p.dst), fw.proxyPort)
  other : ∀ p, PfTcpArrival fw p → InScope fw p.dport →
    interfaceIp (.of p.dst) addrs ≠ some p.dst → ¬PfInterceptsDns fw addrs p →
      ¬(p.iface = "lo0" ∧ PfToUpstream fw p) →
        pfTranslate (buildRules fw addrs) p = some (pfLoopback (.of p.dst), fw.proxyPort)
  quic : ∀ p, PfQuic fw p → pfVerdict (buildRules fw addrs) p = .block

/-! ## What goes wrong -/

/-- The exemption is for an IPv6 address, while the connection goes to the IPv4 address in it. -/
def PfMissesUpstream (fw : FirewallConfig) (addrs : InterfaceAddrs) : Prop :=
  ∃ upstream, fw.upstreamAddr = some upstream ∧ wireAddr upstream.ip ≠ upstream.ip ∧
    (InScope fw upstream.port ∨ fw.interface = "lo0" ∧ upstream.port = 53 ∧
      (dnsTarget .ip fw addrs).isSome ∧ fw.proxyPort ≠ 53)

/-- The LAN is on the loopback interface, where the port of the listener is exempt. -/
def PfExemptsLan (fw : FirewallConfig) (addrs : InterfaceAddrs) : Prop :=
  fw.interface = "lo0" ∧ fw.upstreamAddr.isSome ∧ InScope fw fw.proxyPort ∧
    ∃ f, ¬(fw.proxyPort = 53 ∧ (dnsTarget f fw addrs).isSome)

/-- DNS to the address of the interface goes to the listener, since this is its target. -/
def PfDnsToListener (fw : FirewallConfig) (addrs : InterfaceAddrs) : Prop :=
  ∃ f ip, interfaceIp f addrs = some ip ∧
    dnsTarget f fw addrs = some (pfLoopback f, fw.proxyPort) ∧
      ¬(fw.interface = "lo0" ∧ ∃ upstream, fw.upstreamAddr = some upstream ∧
        (ip = upstream.ip ∧ upstream.port = 53 ∨ fw.proxyPort = 53))

theorem pfTranslate_of_exempt (h : PfExempt fw p) : pfTranslate (buildRules fw addrs) p = none := by
  cases hin : p.inbound with
  | false => exact pfTranslate_outbound hin
  | true => rw [pfTranslate_buildRules hin, if_pos h]

theorem pfTranslate_of_dns (hin : p.inbound = true) (hnot : ¬PfExempt fw p) (hdns : PfDns fw p)
    (htarget : (dnsTarget (.of p.dst) fw addrs).isSome) :
    pfTranslate (buildRules fw addrs) p = dnsTarget (.of p.dst) fw addrs := by
  rw [pfTranslate_buildRules hin, if_neg hnot, if_pos ⟨hdns, htarget⟩]

theorem pfTranslate_of_udp (hudp : p.proto = .udp) (hport : p.dport ≠ 53) :
    pfTranslate (buildRules fw addrs) p = none := by
  cases hin : p.inbound with
  | false => exact pfTranslate_outbound hin
  | true =>
    have hdns : ¬(PfDns fw p ∧ (dnsTarget (.of p.dst) fw addrs).isSome) := fun h => hport h.1.2.2
    rw [pfTranslate_buildRules hin, if_neg hdns]
    simp [PfExempt, PfForGateway, PfRedirected, hudp]

theorem pfVerdict_outbound (hout : p.inbound = false) :
    pfVerdict (buildRules fw addrs) p = pfFilter (buildRules fw addrs) p := by
  rw [pfVerdict, pfTranslate_outbound hout]
  rfl

theorem pfVerdict_of_quic (h : PfQuic fw p) : pfVerdict (buildRules fw addrs) p = .block := by
  rw [pfVerdict, pfTranslate_of_udp h.2.1 (ne_of_mem_quicBlockPorts h.2.2)]
  exact pfFilter_of_quic h

def repeatedOctet (f : NftFamily) (b : UInt8) : IpAddr :=
  match f with
  | .ip => .v4 ⟨Vector.replicate 4 b⟩
  | .ip6 => .v6 ⟨Vector.replicate 16 b⟩

theorem of_repeatedOctet (b : UInt8) : NftFamily.of (repeatedOctet f b) = f := by
  cases f <;> rfl

theorem repeatedOctet_injective (f : NftFamily) : Function.Injective (repeatedOctet f) := by
  intro b c h
  cases f with
  | ip =>
    have hall : ∀ i < 4, b = c := by simpa [repeatedOctet, Vector.ext_iff] using h
    exact hall 0 (by decide)
  | ip6 =>
    have hall : ∀ i < 16, b = c := by simpa [repeatedOctet, Vector.ext_iff] using h
    exact hall 0 (by decide)

/-- A family has more than two addresses. -/
theorem exists_addr (f : NftFamily) (a b : IpAddr) :
    ∃ ip, NftFamily.of ip = f ∧ ip ≠ a ∧ ip ≠ b := by
  have hcard : ({a, b} : Finset IpAddr).card <
      (({0, 1, 2} : Finset UInt8).image (repeatedOctet f)).card := by
    rw [Finset.card_image_of_injective _ (repeatedOctet_injective f)]
    exact Finset.card_le_two.trans_lt (by decide)
  obtain ⟨ip, hip, hnot⟩ := Finset.exists_mem_notMem_of_card_lt_card hcard
  obtain ⟨c, _, rfl⟩ := Finset.mem_image.mp hip
  simp only [Finset.mem_insert, Finset.mem_singleton, not_or] at hnot
  exact ⟨_, of_repeatedOctet c, hnot⟩

/-- The connection to the upstream proxy is left alone but for its exemption. -/
theorem upstream_iff : (∀ p, PfToUpstream fw p →
    (p.inbound = true → p.iface = "lo0" → pfTranslate (buildRules fw addrs) p = none) ∧
      (p.inbound = false → ∀ gateway, pfVerdict (buildRules fw addrs) p ≠ .routeTo gateway)) ↔
    ¬PfMissesUpstream fw addrs := by
  constructor
  · rintro hall ⟨upstream, hupstream, hmapped, hscope | ⟨hlo, hport, hdns, hproxy⟩⟩
    · let leaving : PfPacket := ⟨fw.interface, false, .tcp, wireAddr upstream.ip, upstream.port⟩
      have hnot := (hall leaving ⟨rfl, upstream, hupstream, rfl, rfl⟩).2 rfl
      rw [pfVerdict_outbound rfl, ← not_exists, pfFilter_routeTo_iff rfl rfl] at hnot
      exact hnot ⟨rfl, hscope, upstream, hupstream, fun heq => hmapped heq.1⟩
    · let arriving : PfPacket := ⟨"lo0", true, .tcp, wireAddr upstream.ip, upstream.port⟩
      have hnone := (hall arriving ⟨rfl, upstream, hupstream, rfl, rfl⟩).1 rfl rfl
      have hexempt : ¬PfExempt fw arriving := by
        rintro ⟨_, _, u, hu, ⟨hdst, _⟩ | hdport⟩
        · rw [hupstream] at hu
          cases hu
          exact hmapped hdst
        · exact hproxy (hdport.symm.trans hport)
      have htarget : (dnsTarget (.of arriving.dst) fw addrs).isSome := by
        rw [show NftFamily.of arriving.dst = .ip from of_wireAddr hmapped]
        exact hdns
      rw [pfTranslate_of_dns rfl hexempt ⟨hlo.symm, .inr rfl, hport⟩ htarget] at hnone
      rw [hnone] at htarget
      cases htarget
  · rintro hnot p ⟨htcp, upstream, hupstream, hdst, hport⟩
    by_cases hmapped : wireAddr upstream.ip = upstream.ip
    · constructor
      · intro _ hlo
        exact pfTranslate_of_exempt ⟨hlo, htcp, upstream, hupstream, .inl ⟨hdst.trans hmapped, hport⟩⟩
      · intro hout
        rw [pfVerdict_outbound hout, ← not_exists, pfFilter_routeTo_iff htcp hout]
        rintro ⟨_, _, u, hu, hother⟩
        rw [hupstream] at hu
        cases hu
        exact hother ⟨hdst.trans hmapped, hport⟩
    · have hscope : ¬InScope fw p.dport := by
        rw [hport]
        exact fun hin => hnot ⟨upstream, hupstream, hmapped, .inl hin⟩
      constructor
      · intro hin hlo
        by_cases hexempt : PfExempt fw p
        · exact pfTranslate_of_exempt hexempt
        · have hdns : ¬(PfDns fw p ∧ (dnsTarget (.of p.dst) fw addrs).isSome) := by
            rintro ⟨⟨hiface, _, hdport⟩, htarget⟩
            rw [hdst, of_wireAddr hmapped] at htarget
            refine hnot ⟨upstream, hupstream, hmapped, .inr ⟨hiface.symm.trans hlo,
              hport.symm.trans hdport, htarget, fun hproxy => hexempt ?_⟩⟩
            exact ⟨hlo, htcp, upstream, hupstream, .inr (hdport.trans hproxy.symm)⟩
          rw [pfTranslate_buildRules hin, if_neg hexempt, if_neg hdns]
          simp [PfForGateway, PfRedirected, hscope]
      · intro hout
        rw [pfVerdict_outbound hout, ← not_exists, pfFilter_routeTo_iff htcp hout]
        exact fun ⟨_, hin, _⟩ => hscope hin

/-- So is a connection to the address of the interface, unless DNS goes to the listener. -/
theorem gateway_iff : (∀ p, PfTcpArrival fw p → interfaceIp (.of p.dst) addrs = some p.dst →
    pfTranslate (buildRules fw addrs) p ≠ some (pfLoopback (.of p.dst), fw.proxyPort)) ↔
    ¬PfDnsToListener fw addrs := by
  constructor
  · rintro hall ⟨f, ip, hip, htarget, hnot⟩
    let arriving : PfPacket := ⟨fw.interface, true, .tcp, ip, 53⟩
    have hof : NftFamily.of arriving.dst = f := of_interfaceIp hip
    have hother := hall arriving ⟨rfl, rfl, rfl⟩ (by rw [hof]; exact hip)
    have hexempt : ¬PfExempt fw arriving := by
      rintro ⟨hlo, _, u, hu, ⟨hdst, hport⟩ | hport⟩
      · exact hnot ⟨hlo, u, hu, .inl ⟨hdst, hport.symm⟩⟩
      · exact hnot ⟨hlo, u, hu, .inr hport.symm⟩
    rw [pfTranslate_of_dns rfl hexempt ⟨rfl, .inr rfl, rfl⟩ (by simp [hof, htarget]), hof,
      htarget] at hother
    exact hother rfl
  · rintro hnot p ⟨hin, hiface, htcp⟩ hip hredirected
    by_cases hexempt : PfExempt fw p
    · rw [pfTranslate_of_exempt hexempt] at hredirected
      cases hredirected
    · rw [pfTranslate_buildRules hin, if_neg hexempt] at hredirected
      split_ifs at hredirected with hdns hgateway hscope
      · refine hnot ⟨_, p.dst, hip, hredirected, ?_⟩
        rintro ⟨hlo, u, hu, hcase⟩
        refine hexempt ⟨hiface.trans hlo, htcp, u, hu, ?_⟩
        rcases hcase with ⟨hdst, hport⟩ | hport
        · exact .inl ⟨hdst, hdns.1.2.2.trans hport.symm⟩
        · exact .inr (hdns.1.2.2.trans hport.symm)
      · exact hgateway ⟨hiface, htcp, hip, hscope.2.2⟩

/-- Every other connection of the LAN goes to the listener, up to those that are exempt. -/
theorem other_iff (hupstream : ¬PfMissesUpstream fw addrs) :
    (∀ p, PfTcpArrival fw p → InScope fw p.dport → interfaceIp (.of p.dst) addrs ≠ some p.dst →
      ¬PfInterceptsDns fw addrs p → ¬(p.iface = "lo0" ∧ PfToUpstream fw p) →
        pfTranslate (buildRules fw addrs) p = some (pfLoopback (.of p.dst), fw.proxyPort)) ↔
    ¬PfExemptsLan fw addrs := by
  constructor
  · rintro hall ⟨hlo, hsome, hscope, f, hdns⟩
    obtain ⟨upstream, hu⟩ := Option.isSome_iff_exists.mp hsome
    obtain ⟨ip, rfl, hown, hother⟩ :=
      exists_addr f ((interfaceIp f addrs).getD (wireAddr upstream.ip)) (wireAddr upstream.ip)
    let arriving : PfPacket := ⟨fw.interface, true, .tcp, ip, fw.proxyPort⟩
    have hredirected := hall arriving ⟨rfl, rfl, rfl⟩ hscope ?_ hdns ?_
    · have hexempt : PfExempt fw arriving := ⟨hlo, rfl, upstream, hu, .inr rfl⟩
      rw [pfTranslate_of_exempt hexempt] at hredirected
      cases hredirected
    · intro hip
      rw [show interfaceIp (.of ip) addrs = some ip from hip] at hown
      exact hown rfl
    · rintro ⟨_, _, u, hu', hdst, _⟩
      rw [hu] at hu'
      cases hu'
      exact hother hdst
  · rintro hnot p ⟨hin, hiface, htcp⟩ hscope hown hdns hnotUpstream
    have hexempt : ¬PfExempt fw p := by
      rintro ⟨hlo, _, u, hu, ⟨hdst, hport⟩ | hport⟩
      · by_cases hmapped : wireAddr u.ip = u.ip
        · exact hnotUpstream ⟨hlo, htcp, u, hu, hdst.trans hmapped.symm, hport⟩
        · rw [hport] at hscope
          exact hupstream ⟨u, hu, hmapped, .inl hscope⟩
      · rw [PfInterceptsDns, hport] at hdns
        rw [hport] at hscope
        exact hnot ⟨hiface.symm.trans hlo, Option.isSome_iff_exists.mpr ⟨u, hu⟩, hscope, _, hdns⟩
    have hnotDns : ¬(PfDns fw p ∧ (dnsTarget (.of p.dst) fw addrs).isSome) :=
      fun h => hdns ⟨h.1.2.2, h.2⟩
    have hnotGateway : ¬PfForGateway fw addrs p := fun h => hown h.2.2.1
    rw [pfTranslate_buildRules hin, if_neg hexempt, if_neg hnotDns, if_neg hnotGateway,
      if_pos ⟨.inl hiface, htcp, hscope⟩]

/-- The anchor treats all traffic as it should exactly if it does not miss the upstream proxy,
exempts nothing of the LAN and sends no DNS to the listener. -/
theorem pfTreats_iff (fw : FirewallConfig) (addrs : InterfaceAddrs) : PfTreats fw addrs ↔
    ¬PfMissesUpstream fw addrs ∧ ¬PfExemptsLan fw addrs ∧ ¬PfDnsToListener fw addrs := by
  constructor
  · intro h
    have hupstream := upstream_iff.mp h.upstream
    exact ⟨hupstream, (other_iff hupstream).mp h.other, gateway_iff.mp h.gateway⟩
  · rintro ⟨hupstream, hlan, hdns⟩
    exact
      { order := ⟨_, _, buildRules_eq, isTranslation_translationRules, isTranslation_filterRules⟩
        upstream := upstream_iff.mpr hupstream
        gateway := gateway_iff.mpr hdns
        other := (other_iff hupstream).mpr hlan
        quic := fun _ => pfVerdict_of_quic }

end

/-- Local traffic, and an upstream proxy at `::ffff:192.0.2.1`. -/
def sampleMapped : Config :=
  { Proxy.sampleConfig (.v4 .unspecified 8443)
      { protocol := .httpConnect
        addr := .v6 ⟨#v[0, 0, 0, 0, 0, 0, 0, 0, 0, 0, 255, 255, 192, 0, 2, 1]⟩ 1080 0 0 } with
    localTraffic := true }

/-- The connection of the proxy to its upstream is sent back to the proxy. -/
theorem not_pfTreats : ¬PfTreats (.fromConfig sampleEnv sampleMapped) sampleAddrs := by
  intro h
  have hleaving := (h.upstream ⟨"eth0", false, .tcp, .v4 (.new 192 0 2 1), 1080⟩
    ⟨rfl, _, rfl, rfl, rfl⟩).2 rfl (pfLoopback .ip)
  exact hleaving (by decide)

end TransProxy.Firewall
