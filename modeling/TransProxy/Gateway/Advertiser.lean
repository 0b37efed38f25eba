import TransProxy.Gateway.Advertisements

/-!
# The advertiser in its network

What `run` prepares, the iterations of its loop, and a host of the network that hears the
advertiser among other stations and routers.
-/
namespace TransProxy.Gateway
open Library Net

structure Answers where
  address : Except String (List Char)
  route : Except String (List Char)
  ifaddrs : Option (List (Bytes × Option IpAddr))

structure Plan where
  mac : Mac
  gatewayIp : Ipv4Addr
  arpPkt : Bytes
  ra : Option (Ipv6Addr × Bytes)
deriving DecidableEq

def prepare (iface : String) (answers : Answers) : Except String Plan := do
  let content ← answers.address.mapError
    (fun e => "cannot read /sys/class/net/" ++ iface ++ "/address: " ++ e)
  let mac ← macAddressOf content
  let table ← answers.route.mapError (fun e => "cannot read /proc/net/route: " ++ e)
  let gatewayIp ← parseLinuxDefaultGatewayIpv4 iface.toList table
  let (linkLocal, global) :=
    match getInterfaceIpv6 iface answers.ifaddrs with
    | .ok addrs => addrs
    | .error _ => (.unspecified, .unspecified)
  let raEnabled := linkLocal ≠ .unspecified
  return ⟨mac, gatewayIp, buildGratuitousArp mac gatewayIp,
    if raEnabled then some (linkLocal, buildRouterAdvertisement mac global) else none⟩

def raIntervalTicks : UInt64 := 15

/-- The router advertisement of the iteration with this number. -/
def dueAdvertisement (plan : Plan) (tickCount : UInt64) : Option (Ipv6Addr × Bytes) :=
  if tickCount % raIntervalTicks = 0 then plan.ra else none

/-- A router that the host may choose, and for how many seconds. -/
structure Router where
  mac : Option Mac
  preference : Preference
  left : ℕ
deriving DecidableEq

structure Host where
  mac : Mac
  ip : Ipv4Addr
  arp : Ipv4Addr → Option Mac
  routers : Ipv6Addr → Option Router
  onLink : Network → Option ℕ

/-- An entry is brought up to date by every packet of its address, and made for those that
ask for the host itself. -/
def Host.receiveArp (host : Host) (frame : Bytes) : Host :=
  match readArp frame with
  | some p =>
    if (p.destination = broadcast ∨ p.destination = host.mac) ∧
        ((host.arp p.senderIp).isSome ∨ p.targetIp = host.ip) then
      { host with arp := fun ip => if ip = p.senderIp then some p.senderMac else host.arp ip }
    else host
  | none => host

def Host.receivePrefix (host : Host) (p : PrefixInformation) : Host :=
  if p.onLink && !isLinkLocal p.network.addr then
    { host with onLink := fun network =>
        if network = p.network then (if p.valid = 0 then none else some p.valid.toNat)
        else host.onLink network }
  else host

def Host.receiveRouter (host : Host) (src : Ipv6Addr) (ra : RouterAdvertisement) : Host :=
  { host with routers := fun ip =>
      if ip = src then
        (if ra.lifetime = 0 then none
        else some ⟨ra.sourceMac, ra.preference, ra.lifetime.toNat⟩)
      else host.routers ip }

/-- A router is known by the address of its link. -/
def Host.receiveAdvertisement (host : Host) (src : Ipv6Addr) (packet : Bytes) : Host :=
  match readRouterAdvertisement packet with
  | some ra =>
    if isLinkLocal src then ra.prefixes.foldl Host.receivePrefix (host.receiveRouter src ra)
    else host
  | none => host

def Host.pass (host : Host) (seconds : ℕ) : Host :=
  { host with
    routers := fun ip => (host.routers ip).bind (fun router =>
      if seconds < router.left then some { router with left := router.left - seconds } else none)
    onLink := fun network => (host.onLink network).bind (fun left =>
      if seconds < left then some (left - seconds) else none) }

/-- An iteration of the loop, with which of its packets come to the host; or what the host hears
from another station or router; or time that passes. -/
inductive Event
  | tick (arp ra : Bool)
  | station (frame : Bytes)
  | router (src : Ipv6Addr) (packet : Bytes)
  | pass (seconds : ℕ)

structure Lan where
  tickCount : UInt64
  host : Host

/-- An error of a packet is logged, and the loop goes on. -/
def Lan.step (plan : Plan) (lan : Lan) : Event → Lan
  | .tick arp ra =>
    let tickCount := lan.tickCount + 1
    let host := if arp then lan.host.receiveArp plan.arpPkt else lan.host
    let host :=
      match dueAdvertisement plan tickCount with
      | some (src, packet) => if ra then host.receiveAdvertisement src packet else host
      | none => host
    ⟨tickCount, host⟩
  | .station frame => { lan with host := lan.host.receiveArp frame }
  | .router src packet => { lan with host := lan.host.receiveAdvertisement src packet }
  | .pass seconds => { lan with host := lan.host.pass seconds }

def Lan.run (plan : Plan) (lan : Lan) (events : List Event) : Lan :=
  events.foldl (Lan.step plan) lan

def Event.isTick : Event → Bool
  | .tick _ _ => true
  | _ => false

/-- What the host hears without the advertiser. -/
def others (events : List Event) : List Event := events.filter (fun e => !e.isTick)

def ticks (events : List Event) : ℕ := events.countP Event.isTick

def Event.seconds : Event → ℕ
  | .pass seconds => seconds
  | _ => 0

def secondsOf (events : List Event) : ℕ := (events.map Event.seconds).sum

end TransProxy.Gateway
