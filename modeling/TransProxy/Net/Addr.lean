import TransProxy.Library.Bytes

/-!
# Addresses, ports and clock readings
-/
namespace TransProxy.Net
open Library

structure Ipv4Addr where
  octets : Vector UInt8 4
deriving DecidableEq

structure Ipv6Addr where
  octets : Vector UInt8 16
deriving DecidableEq

inductive IpAddr where
  | v4 (ip : Ipv4Addr)
  | v6 (ip : Ipv6Addr)
deriving DecidableEq

inductive SocketAddr where
  | v4 (ip : Ipv4Addr) (port : UInt16)
  | v6 (ip : Ipv6Addr) (port : UInt16) (flowinfo scopeId : UInt32)
deriving DecidableEq

def Ipv4Addr.new (a b c d : UInt8) : Ipv4Addr := ⟨#v[a, b, c, d]⟩

theorem Ipv4Addr.exists_new (ip : Ipv4Addr) : ∃ a b c d, ip = .new a b c d := by
  obtain ⟨octets⟩ := ip
  exact ⟨octets[0], octets[1], octets[2], octets[3],
    congrArg mk (Vector.toList_inj.mp (toList_eq_ofFn octets))⟩

def Ipv4Addr.unspecified : Ipv4Addr := .new 0 0 0 0

def Ipv6Addr.unspecified : Ipv6Addr := ⟨Vector.replicate 16 0⟩

def IpAddr.isUnspecified : IpAddr → Bool
  | .v4 ip => ip == .unspecified
  | .v6 ip => ip == .unspecified

def SocketAddr.ip : SocketAddr → IpAddr
  | .v4 ip _ => .v4 ip
  | .v6 ip _ _ _ => .v6 ip

def SocketAddr.port : SocketAddr → UInt16
  | .v4 _ port => port
  | .v6 _ port _ _ => port

/-- `SocketAddr::new`: flow information and scope are zero. -/
def SocketAddr.new (ip : IpAddr) (port : UInt16) : SocketAddr :=
  match ip with
  | .v4 ip => .v4 ip port
  | .v6 ip => .v6 ip port 0 0

def Ipv4Addr.display (ip : Ipv4Addr) : String :=
  ".".intercalate (ip.octets.toList.map (fun b => toString b.toNat))

def Ipv6Addr.segments (ip : Ipv6Addr) : List ℕ :=
  (List.range 8).map fun i =>
    256 * (ip.octets.toList.getD (2 * i) 0).toNat + (ip.octets.toList.getD (2 * i + 1) 0).toNat

/-- A run of zero groups, by its first position and its length. -/
structure ZeroSpan where
  start : ℕ
  len : ℕ

/-- The first of the longest runs of zero groups. -/
def longestZeroSpan (segments : List ℕ) : ZeroSpan :=
  let spans := segments.zipIdx.foldl (fun (longest, current) (segment, i) =>
    if segment = 0 then
      let current : ZeroSpan := if current.len = 0 then ⟨i, 1⟩ else ⟨current.start, current.len + 1⟩
      (if longest.len < current.len then current else longest, current)
    else (longest, ⟨0, 0⟩)) ((⟨0, 0⟩ : ZeroSpan), (⟨0, 0⟩ : ZeroSpan))
  spans.1

def hexGroups (segments : List ℕ) : String :=
  ":".intercalate (segments.map (fun n => String.ofList (Nat.toDigits 16 n)))

/-- `::ffff:a.b.c.d` for a mapped IPv4 address, else hexadecimal groups of which the
longest run of zeros is left out. -/
def Ipv6Addr.display (ip : Ipv6Addr) : String :=
  let segments := ip.segments
  if segments.take 6 = [0, 0, 0, 0, 0, 0xFFFF] then
    let o := ip.octets
    "::ffff:" ++ (Ipv4Addr.new o[12] o[13] o[14] o[15]).display
  else
    let zeroes := longestZeroSpan segments
    if 1 < zeroes.len then
      hexGroups (segments.take zeroes.start) ++ "::" ++
        hexGroups (segments.drop (zeroes.start + zeroes.len))
    else hexGroups segments

def IpAddr.display : IpAddr → String
  | .v4 ip => ip.display
  | .v6 ip => ip.display

/-- A reading of the monotonic clock, in nanoseconds. -/
abbrev Instant := ℕ

/-- `Duration::from_secs`, in nanoseconds. -/
def fromSecs (n : ℕ) : ℕ := n * 1000000000

end TransProxy.Net
