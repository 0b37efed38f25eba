import TransProxy.Firewall.Nftables

/-!
# What the host does with packets

A packet is the first one of its connection, since that is the one NAT chains see. The
rules ask the rest of the system which addresses are local and which UDP ports have a
transparent socket; a packet that is assigned to a socket is never forwarded.
-/
namespace TransProxy.Firewall
open Library Net PacketFilter

inductive Proto where
  | tcp
  | udp
  | other
deriving DecidableEq

/-- Where NAT has sent a packet; a redirect leads to a port of the host itself. -/
inductive Translation where
  | dnat (ip : IpAddr) (port : UInt16)
  | redirect (port : UInt16)
deriving DecidableEq

structure Packet where
  proto : Proto
  dst : IpAddr
  dport : UInt16
  /-- The interface it arrived on. -/
  iif : Option String
  /-- The interface it is to leave by. -/
  oif : Option String
  mark : UInt32
  translation : Option Translation
  /-- The port of the transparent socket it is assigned to. -/
  socket : Option UInt16
deriving DecidableEq

def isLoopback : IpAddr → Bool
  | .v4 ip => ip.octets.toList.headD 0 == 127
  | .v6 ip => ip.octets.toList == List.replicate 15 0 ++ [1]

/-- A loopback address, on another interface than that for loopback. The kernel takes such a
packet only where `route_localnet` is set. -/
def Packet.isMartian (p : Packet) : Bool := p.iif != some "lo" && isLoopback p.dst

/-- IPv6 takes no packet for its loopback address from a network. -/
def Packet.Enters (p : Packet) : Prop := .of p.dst = NftFamily.ip6 → p.isMartian = false

instance (p : Packet) : Decidable p.Enters :=
  inferInstanceAs (Decidable (.of p.dst = NftFamily.ip6 → p.isMartian = false))

def Packet.isRedirected (p : Packet) : Bool :=
  match p.translation with
  | some (.redirect _) => true
  | _ => false

structure Network where
  isLocal : IpAddr → Bool
  transparent : NftFamily → UInt16 → Bool

def eval (net : Network) : Expr → Packet → Step Packet
  | .iifname name, p => matching (p.iif = some name) p
  | .oifname name, p => matching (p.oif = some name) p
  | .daddr ip, p => matching (p.dst = ip) p
  | .tcpDport port, p => matching (p.proto = .tcp ∧ p.dport = port) p
  | .udpDport port, p => matching (p.proto = .udp ∧ p.dport = port) p
  | .l4protoTcp, p => matching (p.proto = .tcp) p
  | .mark value, p => matching (p.mark = value) p
  | .fibDaddrLocal, p => matching (net.isLocal p.dst) p
  | .dnatTo ip port, p =>
    .verdict true { p with dst := ip, dport := port, translation := some (.dnat ip port) }
  | .redirectTo port, p =>
    .verdict true { p with dport := port, translation := some (.redirect port) }
  | .tproxyTo port, p =>
    if net.transparent (.of p.dst) port then .next { p with socket := some port } else .skip p
  | .markSet value _, p => .next { p with mark := value }
  | .ret, p => .verdict true p
  | .accept, p => .verdict true p
  | .drop, p => .verdict false p

namespace Host

def rules (host : Host) (f : NftFamily) (c : Chain) : List Rule := (host.chain f c).getD []

/-- A packet behind the chains of a hook, unless it is dropped there. -/
def hook (host : Host) (net : Network) (h : Hook) (p : Packet) : Option Packet :=
  evalHook (eval net) ((Chain.atHook h).map (host.rules (.of p.dst))) p

/-- The routing rule for the TPROXY mark, which comes behind the table of local addresses. -/
def routesToTproxy (host : Host) (net : Network) (p : Packet) : Bool :=
  !net.isLocal p.dst && decide (0 < host.markRules (.of p.dst)) && host.markRoute (.of p.dst) &&
    p.mark &&& tproxyMark == tproxyMark

inductive Delivery where
  | dropped
  /-- Refused, since a loopback address is none of the network. -/
  | martian
  | socket (port : UInt16)
  /-- With the packet as the host gets it. -/
  | local (p : Packet)
  | forwarded (p : Packet)
deriving DecidableEq

def isDelivered (net : Network) (p : Packet) : Bool :=
  match p.translation with
  | some (.redirect _) => true
  | some (.dnat _ _) => net.isLocal p.dst
  | none => net.isLocal p.dst

/-- What becomes of a packet behind the first hook. -/
def route (host : Host) (net : Network) (p : Packet) : Delivery :=
  match p.socket with
  | some port => .socket port
  | none =>
    if isDelivered net p || host.routesToTproxy net p then .local p
    else if host.forwarding (.of p.dst) then
      match host.hook net .forward p with
      | none => .dropped
      | some p => .forwarded p
    else .dropped

/-- What the rules and the tables make of a packet, whatever address it is for. -/
def verdict (host : Host) (net : Network) (p : Packet) : Delivery :=
  match host.hook net .prerouting p with
  | none => .dropped
  | some p => host.route net p

/-- Loopback addresses are refused by either family behind the first hook. A redirect leads to an
address of the interface, which has one of either family. -/
def receive (host : Host) (net : Network) (p : Packet) : Delivery :=
  if p.Enters then
    match host.hook net .prerouting p with
    | none => .dropped
    | some p => if p.isMartian ∧ ¬p.isRedirected then .martian else host.route net p
  else .martian

/-- A packet of the host's own leaves as it is, on the routes of the main table. -/
structure Untouched (host : Host) (net : Network) (p : Packet) : Prop where
  hook : host.hook net .output p = some p
  route : host.routesToTproxy net p = false

end Host

section Passing
variable {net : Network} {p : Packet} {e : Expr} {rule : Rule}

/-- A rule is skipped at its first match that fails. -/
theorem passes_of_skip (h : eval net e p = .skip p) : Passes (eval net) (e :: rule) p :=
  .inl (by rw [evalRule_cons, h])

@[simp] theorem matching_true : matching true p = .next p := rfl

@[simp] theorem matching_false : matching false p = .skip p := rfl

end Passing
end TransProxy.Firewall
