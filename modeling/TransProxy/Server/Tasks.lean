import TransProxy.Config.Parse
import TransProxy.Library.Transition
import TransProxy.Net.AddrText

/-!
# The tasks of the server

`main` waits for the proxy, for the DNS forwarder and for a signal at once. The gateway
advertisements and the UDP relay run beside them. A task makes some calls that may fail and then
goes into its loop; what the loop does for clients is modelled elsewhere, here it goes on or ends.
Errors are the texts of their chains of contexts.
-/
namespace TransProxy.Server
open Library Net Config

/-- A call that is made before a loop. -/
inductive Call where
  /-- `reqwest::Proxy::all`. -/
  | proxyUrl
  /-- `build` of the HTTP client. -/
  | httpClient
  | bindDns
  | bindUpstream
  | connectUpstream
  | bindTcpDns
  /-- `NatHandle::open`. -/
  | openPf
  | listen
  | bindRelay
  | registerRelay
deriving DecidableEq

structure IoError where
  addrInUse : Bool
  text : String

def bindError (what : String) (addr : SocketAddr) (e : IoError) : String :=
  "Failed to " ++ what ++ " on " ++ addr.display ++ ": " ++
    if e.addrInUse then "port already in use by another process" else e.text

/-- `addr` is where the task is to listen. -/
def Call.error (addr : SocketAddr) (e : IoError) : Call → String
  | .proxyUrl => "Invalid upstream proxy URL for DoH: " ++ e.text
  | .httpClient => "Failed to build HTTP client for DoH: " ++ e.text
  | .bindDns => bindError "bind DNS listener" addr e
  | .bindUpstream => "Failed to bind upstream DNS socket: " ++ e.text
  | .connectUpstream => e.text
  | .bindTcpDns => bindError "bind TCP DNS listener" addr e
  | .openPf => "Failed to open /dev/pf (are you running as root?): " ++ e.text
  | .listen => bindError "listen" addr e
  | .bindRelay =>
    "Failed to bind transparent UDP listener on " ++ addr.display ++ ": " ++ e.text
  | .registerRelay => "AsyncFd registration failed: " ++ e.text

/-- A task by the calls that are still to be made; it is in its loop when there are none. -/
abbrev Task := List Call

inductive Dns where
  | absent
  /-- In `build_doh_client`. -/
  | preparing (calls : Task)
  /-- In `try_join!`. -/
  | joined (udp tcp : Task)
  | ended (result : Except String Unit)
  | panicked (error : String)

inductive Proxy where
  | running (calls : Task)
  | ended (error : String)

inductive Background where
  | absent
  | running (calls : Task)
  | ended (error : String)

inductive Gateway where
  | absent
  | preparing
  | advertising
  | ended (error : String)

inductive Shutdown where
  | installing
  | waiting
  | ended (result : Except String String)

structure State where
  dns : Dns
  proxy : Proxy
  relay : Background
  gateway : Gateway
  shutdown : Shutdown
  /-- What `block_on` has returned. -/
  result : Option (Except String Unit)

inductive Part where
  | dnsClient
  | dnsUdp
  | dnsTcp
  | proxy
  | relay

inductive Action where
  | call (part : Part) (c : Call) (r : Except IoError Unit)
  /-- `recv_from` of the DNS listener. -/
  | dnsRecvFails (e : String)
  /-- `accept` of the DNS listener. -/
  | dnsAcceptFails (e : String)
  | dnsPanics (e : String)
  /-- `accept` of the proxy. -/
  | acceptFails (e : String)
  | relayFails (e : String)
  /-- `gateway::run` up to its loop, which does not end. -/
  | gatewayPrepared (r : Except String Unit)
  | installTerm (r : Except String Unit)
  | ctrlC (r : Except String Unit)
  | sigterm
  /-- `main` finds that the proxy has ended. -/
  | seeProxy
  | seeDns
  | seeShutdown

/-- The next call, and what is left of the task, or its error. -/
def call (addr : SocketAddr) (c : Call) (r : Except IoError Unit) :
    Task → Option (Except String Task)
  | [] => none
  | next :: calls =>
    if c = next then
      match r with
      | .ok () => some (.ok calls)
      | .error e => some (.error (c.error addr e))
    else none

def Dns.serveDoh : Dns := .joined [.bindDns, .proxyUrl, .httpClient] [.bindTcpDns]

/-- `dns::run`. -/
def Dns.run : DnsUpstream → Dns
  | .udp _ => .joined [.bindDns, .bindUpstream, .connectUpstream] [.bindTcpDns]
  | .https _ => .preparing [.proxyUrl, .httpClient]

def Part.addr (env : Env) (config : Config) : Part → SocketAddr
  | .dnsClient | .dnsUdp | .dnsTcp => (config.resolveDnsListen env).getD config.listenAddr
  | .proxy | .relay => config.listenAddr

/-- The first listener that fails ends `try_join!`. -/
def Dns.call (addr : SocketAddr) (part : Part) (c : Call) (r : Except IoError Unit) :
    Dns → Option Dns
  | .preparing calls =>
    match part with
    | .dnsClient => (Server.call addr c r calls).map fun
      | .ok [] => .serveDoh
      | .ok calls => .preparing calls
      | .error e => .ended (.error e)
    | _ => none
  | .joined udp tcp =>
    match part with
    | .dnsUdp => (Server.call addr c r udp).map fun
      | .ok udp => .joined udp tcp
      | .error e => .ended (.error e)
    | .dnsTcp => (Server.call addr c r tcp).map fun
      | .ok tcp => .joined udp tcp
      | .error e => .ended (.error e)
    | _ => none
  | _ => none

/-- What `main` makes of the end of the DNS task. -/
def Dns.verdict : Dns → Option (Except String Unit)
  | .ended (.ok ()) => some (.error "DNS forwarder exited unexpectedly")
  | .ended (.error e) => some (.error ("DNS forwarder failed: " ++ e))
  | .panicked e => some (.error ("DNS forwarder task panicked: " ++ e))
  | _ => none

def Proxy.verdict : Proxy → Option (Except String Unit)
  | .running _ => none
  | .ended e => some (.error e)

def Shutdown.verdict : Shutdown → Option (Except String Unit)
  | .ended (.ok _) => some (.ok ())
  | .ended (.error e) => some (.error e)
  | _ => none

/-- A step of a server that has not returned. -/
def taskStep (addr : Part → SocketAddr) (s : State) : Action → Option State
  | .call part c r =>
    match part with
    | .proxy =>
      match s.proxy with
      | .running calls => (call (addr part) c r calls).map fun
        | .ok calls => { s with proxy := .running calls }
        | .error e => { s with proxy := .ended e }
      | .ended _ => none
    | .relay =>
      match s.relay with
      | .running calls => (call (addr part) c r calls).map fun
        | .ok calls => { s with relay := .running calls }
        | .error e => { s with relay := .ended e }
      | _ => none
    | part => (s.dns.call (addr part) part c r).map fun dns => { s with dns }
  | .dnsRecvFails e =>
    match s.dns with
    | .joined [] _ => some { s with dns := .ended (.error e) }
    | _ => none
  | .dnsAcceptFails e =>
    match s.dns with
    | .joined _ [] => some { s with dns := .ended (.error ("TCP DNS accept failed: " ++ e)) }
    | _ => none
  | .dnsPanics e =>
    match s.dns with
    | .preparing _ | .joined _ _ => some { s with dns := .panicked e }
    | _ => none
  | .acceptFails _ =>
    match s.proxy with
    | .running [] => some s  -- the loop sleeps and tries again
    | _ => none
  | .relayFails e =>
    match s.relay with
    | .running [] => some { s with relay := .ended e }
    | _ => none
  | .gatewayPrepared r =>
    match s.gateway, r with
    | .preparing, .ok () => some { s with gateway := .advertising }
    | .preparing, .error e => some { s with gateway := .ended e }
    | _, _ => none
  | .installTerm r =>
    match s.shutdown, r with
    | .installing, .ok () => some { s with shutdown := .waiting }
    | .installing, .error e =>
      some { s with shutdown := .ended (.error ("failed to install SIGTERM handler: " ++ e)) }
    | _, _ => none
  | .ctrlC r =>
    match s.shutdown, r with
    | .waiting, .ok () => some { s with shutdown := .ended (.ok "SIGINT") }
    | .waiting, .error e =>
      some { s with shutdown := .ended (.error ("failed to install Ctrl-C handler: " ++ e)) }
    | _, _ => none
  | .sigterm =>
    match s.shutdown with
    | .waiting => some { s with shutdown := .ended (.ok "SIGTERM") }
    | _ => none
  | .seeProxy => s.proxy.verdict.map fun r => { s with result := some r }
  | .seeDns => s.dns.verdict.map fun r => { s with result := some r }
  | .seeShutdown => s.shutdown.verdict.map fun r => { s with result := some r }

def step (addr : Part → SocketAddr) (s : State) (a : Action) : Option State :=
  match s.result with
  | some _ => none
  | none => taskStep addr s a

def dnsTask (env : Env) (config : Config) : Option Dns :=
  match config.resolveDnsListen env with
  | none => some .absent
  -- without an upstream proxy `expect` panics
  | some _ => config.upstreamProxy.map fun _ => .run config.dnsUpstream

def relayTask (platform : Platform) (config : Config) : Option Background :=
  match platform with
  | .macos => some .absent
  | .linux =>
    if config.proxyUdpEnabled then
      config.upstreamProxy.map fun _ => .running [.bindRelay, .registerRelay]
    else some .absent

def proxyTask : Platform → Task
  | .linux => [.listen]
  | .macos => [.openPf, .listen]

/-- The server at its first await, unless it has panicked before. -/
def start (env : Env) (platform : Platform) (config : Config) : Option State := do
  let dns ← dnsTask env config
  let relay ← relayTask platform config
  let gateway := if config.gateway then .preparing else .absent
  some { dns, proxy := .running (proxyTask platform), relay, gateway, shutdown := .installing
         result := none }

def system (env : Env) (config : Config) (initial : State) : System State Action :=
  { init := initial, step := step (Part.addr env config) }

end TransProxy.Server
