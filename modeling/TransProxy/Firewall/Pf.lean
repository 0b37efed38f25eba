import TransProxy.Firewall.Packets
import TransProxy.Firewall.Setup

/-!
# The rules for pf

The anchor that is loaded on macOS. The first translation rule that a packet from the
network matches decides where it is sent, and the filter rules see it with the address it
has then.
-/
namespace TransProxy.Firewall
open Library Net PacketFilter

def pfFamily : NftFamily → String
  | .ip => "inet"
  | .ip6 => "inet6"

inductive Transport where
  | tcp
  | udp
deriving DecidableEq

def Transport.text : Transport → String
  | tcp => "tcp"
  | udp => "udp"

def Transport.proto : Transport → Proto
  | tcp => .tcp
  | udp => .udp

inductive PfPorts where
  | any
  | one (port : UInt16)
  | oneOf (ports : List UInt16)
deriving DecidableEq

def PfPorts.text : PfPorts → String
  | any => ""
  | one port => " port " ++ toString port.toNat
  | oneOf ports =>
    " port \x7b" ++ ", ".intercalate (ports.map fun port => toString port.toNat) ++ "\x7d"

def PfPorts.has (port : UInt16) : PfPorts → Bool
  | any => true
  | one p => port == p
  | oneOf ports => ports.contains port

/-- What a rule asks of a packet, which may come from anywhere. -/
structure PfMatch where
  iface : String
  family : Option NftFamily
  proto : Transport
  dest : Option IpAddr
  ports : PfPorts
deriving DecidableEq

/-- As `build_rules` writes it, with the route option behind the address family. -/
def PfMatch.text (m : PfMatch) (route : String) : String :=
  " on " ++ m.iface ++ (m.family.elim "" fun f => " " ++ pfFamily f) ++ route ++ " proto " ++
    m.proto.text ++ " from any to " ++ m.dest.elim "any" IpAddr.display ++ m.ports.text

inductive PfRule where
  | rdr (m : PfMatch) (ip : IpAddr) (port : UInt16)
  | noRdr (m : PfMatch)
  | blockQuick (m : PfMatch)
  | passOutQuick (m : PfMatch)
  | passOutRouteTo (m : PfMatch) (gateway : IpAddr)
deriving DecidableEq

def PfRule.text : PfRule → String
  | rdr m ip port => "rdr" ++ m.text "" ++ " -> " ++ ip.display ++ " port " ++ toString port.toNat
  | noRdr m => "no rdr" ++ m.text ""
  | blockQuick m => "block drop quick" ++ m.text ""
  | passOutQuick m => "pass out quick" ++ m.text ""
  | passOutRouteTo m gateway => "pass out" ++ m.text (" route-to (lo0 " ++ gateway.display ++ ")")

structure PfPacket where
  iface : String
  /-- It comes from the network, or leaves for it. -/
  inbound : Bool
  proto : Proto
  dst : IpAddr
  dport : UInt16
deriving DecidableEq

def PfMatch.holds (m : PfMatch) (p : PfPacket) : Bool :=
  p.iface == m.iface && m.family.all (· == .of p.dst) && p.proto == m.proto.proto &&
    m.dest.all (· == p.dst) && m.ports.has p.dport

inductive PfVerdict where
  | pass
  | block
  | routeTo (gateway : IpAddr)
deriving DecidableEq

namespace PfRule

def translation (p : PfPacket) : PfRule → Option (Option (IpAddr × UInt16))
  | rdr m ip port => if m.holds p then some (some (ip, port)) else none
  | noRdr m => if m.holds p then some none else none
  | blockQuick _ => none
  | passOutQuick _ => none
  | passOutRouteTo _ _ => none

/-- What a filter rule decides for a packet that it matches, and whether it is quick. -/
def decision (p : PfPacket) : PfRule → Option (Bool × PfVerdict)
  | rdr _ _ _ => none
  | noRdr _ => none
  | blockQuick m => if m.holds p then some (true, .block) else none
  | passOutQuick m => if !p.inbound && m.holds p then some (true, .pass) else none
  | passOutRouteTo m gateway =>
    if !p.inbound && m.holds p then some (false, .routeTo gateway) else none

def isTranslation : PfRule → Bool
  | rdr _ _ _ => true
  | noRdr _ => true
  | blockQuick _ => false
  | passOutQuick _ => false
  | passOutRouteTo _ _ => false

end PfRule

def pfTranslate (rules : List PfRule) (p : PfPacket) : Option (IpAddr × UInt16) :=
  if p.inbound then (rules.findSome? (PfRule.translation p)).join else none

def PfPacket.sentTo (p : PfPacket) : Option (IpAddr × UInt16) → PfPacket
  | none => p
  | some (ip, port) => { p with dst := ip, dport := port }

def pfFilter (rules : List PfRule) (p : PfPacket) : PfVerdict :=
  (lastMatch (PfRule.decision p) rules).getD .pass

/-- What becomes of a packet: the filter rules see it behind the translation. -/
def pfVerdict (rules : List PfRule) (p : PfPacket) : PfVerdict :=
  pfFilter rules (p.sentTo (pfTranslate rules p))

def pfLoopback : NftFamily → IpAddr
  | .ip => .v4 (.new 127 0 0 1)
  | .ip6 => .v6 ⟨#v[0, 0, 0, 0, 0, 0, 0, 0, 0, 0, 0, 0, 0, 0, 0, 1]⟩

section Rules
variable (fw : FirewallConfig) (addrs : InterfaceAddrs)

def portFilter : PfPorts :=
  match fw.ports with
  | some ports => .oneOf ports
  | none => .any

def dnsRdrFor (f : NftFamily) : List PfRule :=
  match dnsTarget f fw addrs with
  | none => []
  | some (ip, port) =>
    [.rdr ⟨fw.interface, some f, .udp, none, .one 53⟩ ip port,
      .rdr ⟨fw.interface, some f, .tcp, none, .one 53⟩ ip port]

def dnsRdr : List PfRule :=
  if fw.dnsListen.isSome then dnsRdrFor fw addrs .ip ++ dnsRdrFor fw addrs .ip6 else []

def localNoRdrFor (f : NftFamily) : List PfRule :=
  match interfaceIp f addrs with
  | none => []
  | some ip => [.noRdr ⟨fw.interface, some f, .tcp, some ip, portFilter fw⟩]

def localNoRdr : List PfRule := localNoRdrFor fw addrs .ip ++ localNoRdrFor fw addrs .ip6

def quicBlock : List PfRule :=
  if fw.quicBlockPorts = [] then []
  else [.blockQuick ⟨fw.interface, none, .udp, none, .oneOf fw.quicBlockPorts⟩]

def tcpRdr (iface : String) (f : NftFamily) : PfRule :=
  .rdr ⟨iface, some f, .tcp, none, portFilter fw⟩ (pfLoopback f) fw.proxyPort

/-- The exemptions of the upstream proxy and of the listener. -/
def upstreamNoRdr (upstream : SocketAddr) : List PfRule :=
  [.noRdr ⟨"lo0", some (.of upstream.ip), .tcp, some upstream.ip, .one upstream.port⟩,
    .noRdr ⟨"lo0", some .ip, .tcp, none, .one fw.proxyPort⟩,
    .noRdr ⟨"lo0", some .ip6, .tcp, none, .one fw.proxyPort⟩]

/-- Back to the own machine, for the redirects on the loopback interface. -/
def routeTo (f : NftFamily) : PfRule :=
  .passOutRouteTo ⟨fw.interface, some f, .tcp, none, portFilter fw⟩ (pfLoopback f)

def buildRules : List PfRule :=
  match fw.upstreamAddr with
  | some upstream =>
    upstreamNoRdr fw upstream ++ dnsRdr fw addrs ++ localNoRdr fw addrs ++
      [tcpRdr fw fw.interface .ip, tcpRdr fw "lo0" .ip, tcpRdr fw fw.interface .ip6,
        tcpRdr fw "lo0" .ip6] ++
      quicBlock fw ++
      [.passOutQuick ⟨fw.interface, none, .tcp, some upstream.ip, .one upstream.port⟩,
        routeTo fw .ip, routeTo fw .ip6]
  | none =>
    dnsRdr fw addrs ++ localNoRdr fw addrs ++
      [tcpRdr fw fw.interface .ip, tcpRdr fw fw.interface .ip6] ++ quicBlock fw

def rulesText : String :=
  match fw.upstreamAddr with
  | some _ => "\n".intercalate ((buildRules fw addrs).map PfRule.text)
  | none => String.join ((buildRules fw addrs).map fun rule => rule.text ++ "\n")

end Rules
end TransProxy.Firewall
