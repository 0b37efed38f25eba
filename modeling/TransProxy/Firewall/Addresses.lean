import TransProxy.Firewall.Packets
import TransProxy.Firewall.Setup

/-!
# The addresses of the interface

`get_interface_ips` looks for an address of each family, and the configuration has a walk of its
own for the forwarder. Both take the first one that is usable.
-/
namespace TransProxy.Firewall
open Library Net Config

/-- One entry of the list of interfaces: the first usable address of each family counts. -/
def InterfaceAddrs.scan (ifname : Bytes) (addrs : InterfaceAddrs) :
    Bytes × Option IpAddr → InterfaceAddrs
  | (name, some (.v4 ip)) =>
    if name = ifname ∧ addrs.ipv4 = none then { addrs with ipv4 := some ip } else addrs
  | (name, some (.v6 ip)) =>
    if name = ifname ∧ addrs.ipv6 = none ∧ isUsableIpv6 ip then { addrs with ipv6 := some ip }
    else addrs
  | (_, none) => addrs

def getInterfaceIps (env : Env) (name : String) : InterfaceAddrs :=
  if 0 ∈ strBytes name then { ipv4 := none, ipv6 := none }
  else
    match env.ifaddrs with
    | none => { ipv4 := none, ipv6 := none }
    | some entries => entries.foldl (.scan (strBytes name)) { ipv4 := none, ipv6 := none }

def addrsOf (ifname : Bytes) (entries : List (Bytes × Option IpAddr)) : List IpAddr :=
  (entries.filter fun e => e.1 = ifname).filterMap fun e => e.2

def asV4 : IpAddr → Option Ipv4Addr
  | .v4 ip => some ip
  | .v6 _ => none

def asUsableV6 : IpAddr → Option Ipv6Addr
  | .v4 _ => none
  | .v6 ip => if isUsableIpv6 ip then some ip else none

section Walks
variable {ifname : Bytes} {name : String} {env : Env}

theorem addrsOf_cons (name : Bytes) (addr : Option IpAddr)
    (entries : List (Bytes × Option IpAddr)) : addrsOf ifname ((name, addr) :: entries) =
      (if name = ifname then addr.toList else []) ++ addrsOf ifname entries := by
  by_cases hname : name = ifname
  · cases addr <;> simp [addrsOf, hname]
  · simp [addrsOf, hname]

theorem foldl_scan (entries : List (Bytes × Option IpAddr)) (addrs : InterfaceAddrs) :
    entries.foldl (.scan ifname) addrs =
      { ipv4 := addrs.ipv4.or ((addrsOf ifname entries).findSome? asV4)
        ipv6 := addrs.ipv6.or ((addrsOf ifname entries).findSome? asUsableV6) } := by
  induction entries generalizing addrs with
  | nil => simp [addrsOf]
  | cons e entries ih =>
    obtain ⟨name, addr⟩ := e
    rw [List.foldl_cons, ih, addrsOf_cons]
    match addr with
    | none => simp [InterfaceAddrs.scan]
    | some (.v4 ip) =>
      by_cases hname : name = ifname
      · cases hv4 : addrs.ipv4 <;>
          simp [InterfaceAddrs.scan, asV4, asUsableV6, hname, hv4, List.findSome?_cons]
      · simp [InterfaceAddrs.scan, hname]
    | some (.v6 ip) =>
      by_cases hname : name = ifname
      · cases hv6 : addrs.ipv6 <;> cases husable : isUsableIpv6 ip <;>
          simp [InterfaceAddrs.scan, asV4, asUsableV6, hname, hv6, husable, List.findSome?_cons]
      · simp [InterfaceAddrs.scan, hname]

theorem find?_v4 (ips : List IpAddr) :
    (ips.find? fun ip => match ip with
      | .v4 _ => true
      | .v6 _ => false) = (ips.findSome? asV4).map .v4 := by
  induction ips with
  | nil => rfl
  | cons ip ips ih =>
    rw [List.find?_cons, List.findSome?_cons]
    cases ip with
    | v4 ip => rfl
    | v6 ip => exact ih

theorem find?_usableV6 (ips : List IpAddr) :
    (ips.find? fun ip => match ip with
      | .v4 _ => false
      | .v6 ip => isUsableIpv6 ip) = (ips.findSome? asUsableV6).map .v6 := by
  induction ips with
  | nil => rfl
  | cons ip ips ih =>
    rw [List.find?_cons, List.findSome?_cons]
    cases ip with
    | v4 ip => exact ih
    | v6 ip =>
      cases husable : isUsableIpv6 ip with
      | true => simp [asUsableV6, husable]
      | false => simpa only [asUsableV6, husable, Bool.false_eq_true, if_false] using ih

/-- The walk for the forwarder finds what the walk for the firewall does. -/
theorem getInterfaceIp_eq : getInterfaceIp env name =
    (interfaceIp .ip (getInterfaceIps env name)).or
      (interfaceIp .ip6 (getInterfaceIps env name)) := by
  unfold getInterfaceIp getInterfaceIps
  by_cases hnul : 0 ∈ strBytes name
  · rw [if_pos hnul, if_pos hnul]
    rfl
  · rw [if_neg hnul, if_neg hnul]
    cases env.ifaddrs with
    | none => rfl
    | some entries =>
      have hv4 := find?_v4 (addrsOf (strBytes name) entries)
      have hv6 := find?_usableV6 (addrsOf (strBytes name) entries)
      simp only [foldl_scan, Option.none_or, Option.orElse_eq_orElse, Option.orElse_eq_or]
      exact congrArg₂ Option.or hv4 hv6

end Walks

/-- The interface has a link-local address and two others. -/
def sampleLan : Env :=
  { lookupHost := fun _ _ => .error ""
    ifaddrs := some [(strBytes "lo", some (.v4 (.new 127 0 0 1))), (strBytes "eth0", none),
      (strBytes "eth0", some (.v6 (.ofSegments [0xfe80, 0, 0, 0, 0, 0, 0, 1]))),
      (strBytes "eth0", some (.v4 (.new 192 168 1 1))),
      (strBytes "eth0", some (.v6 (.ofSegments [0x2001, 0xdb8, 0, 0, 0, 0, 0, 1])))] }

def sampleOwn : Network :=
  { isLocal := fun ip => ip = .v4 (.new 192 168 1 1) ∨
      ip = .v6 (.ofSegments [0x2001, 0xdb8, 0, 0, 0, 0, 0, 1])
    transparent := fun _ _ => false }

theorem isLocal_sampleOwn (f : NftFamily) (ip : IpAddr)
    (hip : interfaceIp f (getInterfaceIps sampleLan "eth0") = some ip) :
    sampleOwn.isLocal ip = true := by
  have hall : (interfaceIp f (getInterfaceIps sampleLan "eth0")).all sampleOwn.isLocal = true := by
    cases f <;> decide
  exact (Option.all_eq_true _ _).mp hall ip hip

end TransProxy.Firewall
