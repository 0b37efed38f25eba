import TransProxy.Firewall.Config
import TransProxy.Firewall.Nftables
import TransProxy.Library.Script

/-!
# The firewall setup on Linux

`setup` and `teardown` as scripts of commands. The sections for IPv4 and IPv6 are the same
up to the family: the first one is part of `setup` itself and has to succeed, the second
one is `setup_ipv6` and may fail.
-/
namespace TransProxy.Firewall
open Library Net

/-- What `get_interface_ips` finds. -/
structure InterfaceAddrs where
  ipv4 : Option Ipv4Addr
  ipv6 : Option Ipv6Addr

namespace FirewallConfig

/-- The UDP ports of QUIC that must not get past the proxy. -/
def quicBlockPorts (fw : FirewallConfig) : List UInt16 :=
  if !fw.blockQuic then []
  else
    match fw.ports with
    | some ports => ports.filter (· ≠ 53)
    | none => [443]

def dnsTargetV4 (fw : FirewallConfig) (ifaceV4 : Option Ipv4Addr) : Option (Ipv4Addr × UInt16) :=
  match fw.dnsListen with
  | none => none
  | some listen =>
    match listen.ip with
    | .v4 ip =>
      if ip ≠ .unspecified then some (ip, listen.port) else ifaceV4.map fun ip => (ip, listen.port)
    | .v6 ip =>
      if ip = .unspecified then ifaceV4.map fun ip => (ip, listen.port) else none

def dnsTargetV6 (fw : FirewallConfig) (ifaceV6 : Option Ipv6Addr) : Option (Ipv6Addr × UInt16) :=
  match fw.dnsListen with
  | none => none
  | some listen =>
    match listen.ip with
    | .v6 ip =>
      if ip ≠ .unspecified then some (ip, listen.port) else ifaceV6.map fun ip => (ip, listen.port)
    | .v4 _ => none

end FirewallConfig

section Rules
variable (f : NftFamily) (fw : FirewallConfig) (addrs : InterfaceAddrs)

/-- The address of the interface that the rules of a family are made with. -/
def interfaceIp : Option IpAddr :=
  match f with
  | .ip => addrs.ipv4.map .v4
  | .ip6 => addrs.ipv6.map .v6

def dnsTarget : Option (IpAddr × UInt16) :=
  match f with
  | .ip => (fw.dnsTargetV4 addrs.ipv4).map fun (ip, port) => (.v4 ip, port)
  | .ip6 => (fw.dnsTargetV6 addrs.ipv6).map fun (ip, port) => (.v6 ip, port)

def dnsRules : List Rule :=
  match dnsTarget f fw addrs with
  | none => []
  | some (ip, port) =>
    [[.iifname fw.interface, .udpDport 53, .dnatTo ip port],
      [.iifname fw.interface, .tcpDport 53, .dnatTo ip port]]

/-- The redirects of one chain, which all begin with the same matches: for the ports, or for
all of TCP behind the given exemptions. -/
def redirectRules (matched : Rule) (exemptions : List Rule) : List Rule :=
  match fw.ports with
  | some ports => ports.map fun p => matched ++ [.tcpDport p, .redirectTo fw.proxyPort]
  | none => exemptions ++ [matched ++ [.l4protoTcp, .redirectTo fw.proxyPort]]

def sshBypass (matched : Rule) : List Rule :=
  match interfaceIp f addrs with
  | none => []
  | some ip => [matched ++ [.daddr ip, .tcpDport 22, .ret]]

def preroutingRules : List Rule :=
  dnsRules f fw addrs ++ redirectRules fw [.iifname fw.interface]
    (sshBypass f addrs [.iifname fw.interface] ++ [[.iifname fw.interface, .fibDaddrLocal, .ret]])

/-- `upstream_output_exclusion_args`. -/
def upstreamOutputExclusion (upstream : SocketAddr) : Option Rule :=
  if NftFamily.of upstream.ip = f then
    some [.daddr upstream.ip, .tcpDport upstream.port, .ret]
  else none

def outputRules (fwmark : UInt32) : List Rule :=
  [[.mark fwmark, .ret]] ++ (fw.upstreamAddr.bind (upstreamOutputExclusion f)).toList ++
    [[.fibDaddrLocal, .ret]] ++ redirectRules fw [] (sshBypass f addrs [])

def tproxyRule (port : UInt16) : Rule :=
  [.iifname fw.interface, .udpDport port, .tproxyTo fw.proxyPort,
    .markSet tproxyMark tproxyMarkText, .accept]

/-- `quic_drop_rule_args`, with the match of the interface. -/
def quicDropRule (dir : Expr) (port : UInt16) : Rule := [dir, .udpDport port, .drop]

def chainCmds (c : Chain) (rules : List Rule) : List Cmd :=
  .addChain f c :: rules.map (.addRule f c)

def natCmds : List Cmd :=
  .addTable f :: (chainCmds f .prerouting (preroutingRules f fw addrs) ++
    match fw.fwmark with
    | none => []
    | some fwmark => chainCmds f .output (outputRules f fw addrs fwmark))

end Rules

abbrev FirewallScript := Script Cmd Outcome String

def runCmds : List Cmd → FirewallScript Unit := Script.checkAll runCmdError

def setupQuicBlockOutput (fw : FirewallConfig) (f : NftFamily) : FirewallScript Unit :=
  if fw.quicBlockPorts = [] ∨ fw.fwmark = none then pure ()
  else
    runCmds (chainCmds f .quicOutput
      (fw.quicBlockPorts.map (quicDropRule (.oifname fw.interface))))

def setupQuicBlock (fw : FirewallConfig) (f : NftFamily) : FirewallScript Unit :=
  if fw.quicBlockPorts = [] then pure ()
  else do
    runCmds (chainCmds f .quicForward
      (fw.quicBlockPorts.map (quicDropRule (.iifname fw.interface))))
    setupQuicBlockOutput fw f

def setupUdpTproxy (fw : FirewallConfig) (f : NftFamily) : FirewallScript Unit :=
  if fw.quicBlockPorts = [] then pure ()
  else runCmds (chainCmds f .tproxyPrerouting (fw.quicBlockPorts.map (tproxyRule fw)))

/-- QUIC is dropped where it cannot be intercepted. -/
def setupUdpHandling (fw : FirewallConfig) (f : NftFamily) : FirewallScript Unit :=
  if fw.proxyUdp then do
    let tproxy ← (setupUdpTproxy fw f).attempt
    match tproxy with
    | .ok () => setupQuicBlockOutput fw f
    | .error _ => setupQuicBlock fw f
  else if fw.blockQuic then setupQuicBlock fw f
  else pure ()

def setupFamily (f : NftFamily) (fw : FirewallConfig) (addrs : InterfaceAddrs) :
    FirewallScript Unit := do
  runCmds (natCmds f fw addrs)
  setupUdpHandling fw f

def setupIpv6 (fw : FirewallConfig) (addrs : InterfaceAddrs) : FirewallScript Unit :=
  setupFamily .ip6 fw addrs

def setupTproxyRouting : FirewallScript Unit := do
  .ignore (.ruleDel .ip)
  runCmds [.ruleAdd .ip]
  .ignore (.routeFlush .ip)
  runCmds [.routeAdd .ip]
  .ignore (.ruleDel .ip6)
  .ignore (.ruleAdd .ip6)
  .ignore (.routeFlush .ip6)
  .ignore (.routeAdd .ip6)

/-- The addresses of the interface are those that `get_interface_ips` finds on the way. -/
def setup (fw : FirewallConfig) (addrs : InterfaceAddrs) : FirewallScript Unit := do
  .ignore (.deleteTable .ip)
  .ignore (.deleteTable .ip6)
  runCmds [.setForwarding .ip true]
  .ignore (.setForwarding .ip6 true)
  setupFamily .ip fw addrs
  let _ ← (setupIpv6 fw addrs).attempt
  if fw.proxyUdp then do
    let _ ← setupTproxyRouting.attempt
    pure ()
  else pure ()

def teardownTproxyRouting : FirewallScript Unit := do
  .ignore (.ruleDel .ip)
  .ignore (.routeFlush .ip)
  .ignore (.ruleDel .ip6)
  .ignore (.routeFlush .ip6)

def teardown : FirewallScript Unit := do
  .ignore (.deleteTable .ip)
  .ignore (.deleteTable .ip6)
  teardownTproxyRouting
  runCmds [.setForwarding .ip false]
  .ignore (.setForwarding .ip6 false)

def Host.after (host : Host) (trace : List (Cmd × Outcome)) : Host :=
  Script.after Cmd.effect host trace

/-- No setup has left anything. -/
structure Host.Clean (host : Host) : Prop where
  tables : ∀ f, host.tables f = none
  markRules : ∀ f, host.markRules f = 0
  markRoute : ∀ f, host.markRoute f = false

/-- The hosts that setups and teardowns make of a clean one, whichever of their commands
fail and wherever they are killed. -/
inductive Host.Reachable : Host → Prop
  | clean {host : Host} (h : host.Clean) : Reachable host
  | setup {host : Host} {fw : FirewallConfig} {addrs : InterfaceAddrs}
      {trace rest : List (Cmd × Outcome)} {result : Except String Unit} (h : Reachable host)
      (hruns : (setup fw addrs).Runs (trace ++ rest) result) : Reachable (host.after trace)
  | teardown {host : Host} {trace rest : List (Cmd × Outcome)} {result : Except String Unit}
      (h : Reachable host) (hruns : teardown.Runs (trace ++ rest) result) :
      Reachable (host.after trace)

end TransProxy.Firewall
