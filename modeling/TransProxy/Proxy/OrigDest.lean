import TransProxy.Net.Addr

/-!
# Where a redirected connection was going

`get_original_dest` on both platforms, over what the kernel answers about an accepted
socket. A connection is refused as a loop when the answer is the listen address itself.
-/
namespace TransProxy.Proxy
open Net

/-- `to_ipv4_mapped`, of `::ffff:a.b.c.d`. -/
def toIpv4Mapped (ip : Ipv6Addr) : Option Ipv4Addr :=
  let o := ip.octets
  if o.toList.take 12 = [0, 0, 0, 0, 0, 0, 0, 0, 0, 0, 0xFF, 0xFF] then
    some (.new (o.get 12) (o.get 13) (o.get 14) (o.get 15))
  else none

/-- An error on its way up gets a text in front. -/
def context {α : Type*} (text : String) : Except String α → Except String α :=
  Except.mapError (fun e => text ++ ": " ++ e)

def undetermined : String := "Could not determine original destination"

def loopDetected : String := "Loop detected: original dest equals listen addr"

/-- The test that ends `get_original_dest` on either platform. -/
def checkLoop (listenAddr dest : SocketAddr) : Except String SocketAddr :=
  if dest = listenAddr then .error loopDetected else .ok dest

/-- What `getsockopt` answers on an accepted socket, or the text of the error. -/
structure Sockopts where
  /-- `SO_ORIGINAL_DST`. -/
  originalDst : Except String (Ipv4Addr × UInt16)
  /-- `IP6T_SO_ORIGINAL_DST`, with flow information and scope. -/
  originalDst6 : Except String (Ipv6Addr × UInt16 × UInt32 × UInt32)

namespace Linux

def getOriginalDestV4 (sock : Sockopts) : Except String SocketAddr :=
  context "getsockopt(SO_ORIGINAL_DST) failed" (sock.originalDst.map fun (ip, port) => .v4 ip port)

def getOriginalDestV6 (sock : Sockopts) : Except String SocketAddr :=
  context "getsockopt(IP6T_SO_ORIGINAL_DST) failed"
    (sock.originalDst6.map fun (ip, port, flowinfo, scopeId) => .v6 ip port flowinfo scopeId)

def isV4Mapped : SocketAddr → Bool
  | .v6 ip _ _ _ => (toIpv4Mapped ip).isSome
  | .v4 _ _ => false

def getOriginalDest (sock : Sockopts) (localAddr listenAddr : SocketAddr) :
    Except String SocketAddr := do
  let dest ← context undetermined
    (if isV4Mapped localAddr then getOriginalDestV4 sock
    else
      match localAddr with
      | .v6 _ _ _ _ => getOriginalDestV6 sock
      | .v4 _ _ => getOriginalDestV4 sock)
  checkLoop listenAddr dest

end Linux

inductive Direction where
  | pfOut
  | pfIn

/-- A `DIOCNATLOOK` request for a TCP connection; an IPv4 address is in the first bytes. -/
structure Natlook where
  ipv6 : Bool
  saddr : Vector UInt8 16
  sxport : UInt16
  daddr : Vector UInt8 16
  dxport : UInt16
  direction : Direction

abbrev PfHandle := Natlook → Except String (Vector UInt8 16 × UInt16)

namespace MacOs

def v4Bytes (ip : Ipv4Addr) : Vector UInt8 16 :=
  Vector.ofFn fun i => ip.octets.toList.getD i.val 0

/-- Ask for the connection as outgoing first, then as incoming. -/
def natlook (pf : PfHandle) (nl : Natlook) : Except String (Vector UInt8 16 × UInt16) :=
  match pf { nl with direction := .pfOut } with
  | .ok found => .ok found
  | .error _ =>
    context "DIOCNATLOOK failed for both PF_OUT and PF_IN" (pf { nl with direction := .pfIn })

def getOriginalDestPf (pf : PfHandle) (clientAddr localAddr : SocketAddr) :
    Except String SocketAddr :=
  match clientAddr, localAddr with
  | .v4 c cport, .v4 l lport =>
    (natlook pf ⟨false, v4Bytes c, cport, v4Bytes l, lport, .pfOut⟩).map
      fun (rdaddr, port) => .v4 (.new rdaddr[0] rdaddr[1] rdaddr[2] rdaddr[3]) port
  | .v6 c cport _ _, .v6 l lport _ _ =>
    (natlook pf ⟨true, c.octets, cport, l.octets, lport, .pfOut⟩).map
      fun (rdaddr, port) => .v6 ⟨rdaddr⟩ port 0 0
  | _, _ => .error "Address family mismatch between client and local addr"

def getOriginalDest (pf : PfHandle) (clientAddr localAddr listenAddr : SocketAddr) :
    Except String SocketAddr :=
  match getOriginalDestPf pf clientAddr localAddr with
  | .ok dest => checkLoop listenAddr dest
  | .error e =>
    if localAddr ≠ listenAddr ∧ localAddr.port ≠ listenAddr.port then .ok localAddr
    else context undetermined (.error e)

end MacOs

/-- What the platform has to go by for an accepted connection. -/
inductive Kernel where
  | linux (sock : Sockopts)
  | macos (pf : PfHandle) (clientAddr : SocketAddr)

def getOriginalDest : Kernel → SocketAddr → SocketAddr → Except String SocketAddr
  | .linux sock => Linux.getOriginalDest sock
  | .macos pf clientAddr => MacOs.getOriginalDest pf clientAddr

/-- The address stands for every address of its family, or for every IPv4-mapped one. -/
def isWildcard : IpAddr → Bool
  | .v4 ip => ip == .unspecified
  | .v6 ip => ip == .unspecified || toIpv4Mapped ip == some .unspecified

/-- A listener on one address can accept a connection at the other: port 0 stands for a port that
the system picks. -/
structure Accepts (listenAddr localAddr : SocketAddr) : Prop where
  family : (∃ ip port ip' port', listenAddr = .v4 ip port ∧ localAddr = .v4 ip' port') ∨
    ∃ ip port f s ip' port' f' s', listenAddr = .v6 ip port f s ∧ localAddr = .v6 ip' port' f' s'
  ip : isWildcard listenAddr.ip = false → localAddr.ip = listenAddr.ip
  specific : isWildcard localAddr.ip = false
  port : listenAddr.port ≠ 0 → localAddr.port = listenAddr.port
  bound : localAddr.port ≠ 0

/-- The kernel reports the address that the client dialled, and that is the local address:
the connection was not redirected. On Linux an IPv4-mapped address is reported as the
IPv4 address, and an IPv6 address with some flow information and scope. -/
def Kernel.ReportsLocal (flowinfo scopeId : UInt32) (localAddr : SocketAddr) : Kernel → Prop
  | .linux sock =>
    match localAddr with
    | .v4 ip port => sock.originalDst = .ok (ip, port)
    | .v6 ip port _ _ =>
      match toIpv4Mapped ip with
      | some ip4 => sock.originalDst = .ok (ip4, port)
      | none => sock.originalDst6 = .ok (ip, port, flowinfo, scopeId)
  | .macos pf clientAddr =>
    match clientAddr, localAddr with
    | .v4 c cport, .v4 l lport =>
      MacOs.natlook pf ⟨false, MacOs.v4Bytes c, cport, MacOs.v4Bytes l, lport, .pfOut⟩ =
        .ok (MacOs.v4Bytes l, lport)
    | .v6 c cport _ _, .v6 l lport _ _ =>
      flowinfo = 0 ∧ scopeId = 0 ∧
        MacOs.natlook pf ⟨true, c.octets, cport, l.octets, lport, .pfOut⟩ = .ok (l.octets, lport)
    | _, _ => False

def Kernel.reported (flowinfo scopeId : UInt32) (localAddr : SocketAddr) : Kernel → SocketAddr
  | .linux _ =>
    match localAddr with
    | .v4 ip port => .v4 ip port
    | .v6 ip port _ _ =>
      match toIpv4Mapped ip with
      | some ip4 => .v4 ip4 port
      | none => .v6 ip port flowinfo scopeId
  | .macos _ _ =>
    match localAddr with
    | .v4 ip port => .v4 ip port
    | .v6 ip port _ _ => .v6 ip port 0 0

/-- The listen address is one that a connection to it can be reported at: a specific address
and port, not an IPv4-mapped one on Linux, with the flow information and scope reported. -/
def Kernel.CanReport (flowinfo scopeId : UInt32) (listenAddr : SocketAddr) (k : Kernel) : Prop :=
  isWildcard listenAddr.ip = false ∧ listenAddr.port ≠ 0 ∧
    match listenAddr with
    | .v4 _ _ => True
    | .v6 ip _ f s => f = flowinfo ∧ s = scopeId ∧
        match k with
        | .linux _ => toIpv4Mapped ip = none
        | .macos _ _ => True

theorem v4_v4Bytes (ip : Ipv4Addr) :
    Ipv4Addr.new (MacOs.v4Bytes ip)[0] (MacOs.v4Bytes ip)[1] (MacOs.v4Bytes ip)[2]
      (MacOs.v4Bytes ip)[3] = ip := by
  obtain ⟨octets⟩ := ip
  simp only [Ipv4Addr.new, Ipv4Addr.mk.injEq]
  ext i hi
  match i, hi with
  | 0, _ => simp [MacOs.v4Bytes]
  | 1, _ => simp [MacOs.v4Bytes]
  | 2, _ => simp [MacOs.v4Bytes]
  | 3, _ => simp [MacOs.v4Bytes]

/-- Unless it is taken for a loop, the address reported is the destination. -/
theorem getOriginalDest_of_reportsLocal {k : Kernel} {flowinfo scopeId : UInt32}
    {localAddr : SocketAddr} (hk : k.ReportsLocal flowinfo scopeId localAddr) (listenAddr : SocketAddr) :
    getOriginalDest k localAddr listenAddr =
      checkLoop listenAddr (k.reported flowinfo scopeId localAddr) := by
  cases k with
  | linux sock =>
    cases localAddr with
    | v4 ip port =>
      simp only [Kernel.ReportsLocal] at hk
      simp [getOriginalDest, Linux.getOriginalDest, Linux.isV4Mapped, Linux.getOriginalDestV4, hk,
        context, Except.map, Except.mapError, Kernel.reported, bind, Except.bind]
    | v6 ip port f s =>
      cases hmapped : toIpv4Mapped ip with
      | some ip4 =>
        simp only [Kernel.ReportsLocal, hmapped] at hk
        simp [getOriginalDest, Linux.getOriginalDest, Linux.isV4Mapped, Linux.getOriginalDestV4, hk,
          hmapped, context, Except.map, Except.mapError, Kernel.reported, bind, Except.bind]
      | none =>
        simp only [Kernel.ReportsLocal, hmapped] at hk
        simp [getOriginalDest, Linux.getOriginalDest, Linux.isV4Mapped, Linux.getOriginalDestV6, hk,
          hmapped, context, Except.map, Except.mapError, Kernel.reported, bind, Except.bind]
  | macos pf clientAddr =>
    cases clientAddr with
    | v4 c cport =>
      cases localAddr with
      | v4 l lport =>
        simp only [Kernel.ReportsLocal] at hk
        simp [getOriginalDest, MacOs.getOriginalDest, MacOs.getOriginalDestPf, hk, Except.map,
          Kernel.reported, v4_v4Bytes]
      | v6 l lport f s => exact hk.elim
    | v6 c cport _ _ =>
      cases localAddr with
      | v4 l lport => exact hk.elim
      | v6 l lport f s =>
        simp only [Kernel.ReportsLocal] at hk
        simp [getOriginalDest, MacOs.getOriginalDest, MacOs.getOriginalDestPf, hk.2.2, Except.map,
          Kernel.reported]

/-- The listen address is reported exactly for connections to a specific one. -/
theorem reported_eq_iff {k : Kernel} {flowinfo scopeId : UInt32} {listenAddr localAddr : SocketAddr}
    (h : Accepts listenAddr localAddr) (hk : k.ReportsLocal flowinfo scopeId localAddr) :
    k.reported flowinfo scopeId localAddr = listenAddr ↔
      k.CanReport flowinfo scopeId listenAddr := by
  obtain ⟨ip, port, ip', port', rfl, rfl⟩ | ⟨ip, port, f, s, ip', port', f', s', rfl, rfl⟩ := h.family
  · have hreported : k.reported flowinfo scopeId (.v4 ip' port') = .v4 ip' port' := by
      cases k <;> rfl
    rw [hreported]
    constructor
    · intro heq
      rw [heq] at h
      exact ⟨h.specific, h.bound, trivial⟩
    · rintro ⟨hspecific, hport, _⟩
      have hip := h.ip hspecific
      have hport' := h.port hport
      simp only [SocketAddr.ip, IpAddr.v4.injEq] at hip
      simp only [SocketAddr.port] at hport'
      rw [hip, hport']
  · cases k with
    | linux sock =>
      cases hmapped : toIpv4Mapped ip' with
      | some ip4 =>
        simp only [Kernel.reported, hmapped, reduceCtorEq, false_iff]
        rintro ⟨hspecific, _, _, _, hnone⟩
        have hip := h.ip hspecific
        simp only [SocketAddr.ip, IpAddr.v6.injEq] at hip
        rw [← hip, hmapped] at hnone
        cases hnone
      | none =>
        simp only [Kernel.reported, hmapped]
        constructor
        · intro heq
          obtain ⟨rfl, rfl, rfl, rfl⟩ := SocketAddr.v6.inj heq
          exact ⟨h.specific, h.bound, rfl, rfl, hmapped⟩
        · rintro ⟨hspecific, hport, rfl, rfl, _⟩
          have hip := h.ip hspecific
          have hport' := h.port hport
          simp only [SocketAddr.ip, IpAddr.v6.injEq] at hip
          simp only [SocketAddr.port] at hport'
          rw [hip, hport']
    | macos pf clientAddr =>
      obtain ⟨rfl, rfl⟩ : flowinfo = 0 ∧ scopeId = 0 := by
        cases clientAddr with
        | v4 c cport => exact hk.elim
        | v6 c cport _ _ => exact ⟨hk.1, hk.2.1⟩
      simp only [Kernel.reported]
      constructor
      · intro heq
        obtain ⟨rfl, rfl, rfl, rfl⟩ := SocketAddr.v6.inj heq
        exact ⟨h.specific, h.bound, rfl, rfl, trivial⟩
      · rintro ⟨hspecific, hport, rfl, rfl, _⟩
        have hip := h.ip hspecific
        have hport' := h.port hport
        simp only [SocketAddr.ip, IpAddr.v6.injEq] at hip
        simp only [SocketAddr.port] at hport'
        rw [hip, hport']

end TransProxy.Proxy
