import TransProxy.Gateway.Interface
import TransProxy.Library.Options

/-!
# The two advertisements

The ARP reply in the name of the gateway and the router advertisement, as the program builds
them and as a host of the network reads them.
-/
namespace TransProxy.Gateway
open Library Net

def broadcast : Mac := Vector.replicate 6 0xff

def buildGratuitousArp (srcMac : Mac) (gatewayIp : Ipv4Addr) : Bytes :=
  broadcast.toList ++ srcMac.toList ++ [0x08, 0x06] ++
    [0x00, 0x01] ++ [0x08, 0x00] ++ [6] ++ [4] ++ [0x00, 0x02] ++
    srcMac.toList ++ gatewayIp.octets.toList ++ broadcast.toList ++ gatewayIp.octets.toList

def raRouterLifetime : UInt16 := 1800

def prefixBytes (ip : Ipv6Addr) : Bytes := ip.octets.toList.take 8 ++ List.replicate 8 0

def buildRouterAdvertisement (srcMac : Mac) (network : Ipv6Addr) : Bytes :=
  [134] ++ [0] ++ [0, 0] ++ [64] ++ [0x08] ++ u16ToBeBytes raRouterLifetime ++
    u32ToBeBytes 0 ++ u32ToBeBytes 0 ++
    [1] ++ [1] ++ srcMac.toList ++
    [3] ++ [4] ++ [64] ++ [0xc0] ++ u32ToBeBytes 2592000 ++ u32ToBeBytes 604800 ++
    u32ToBeBytes 0 ++ prefixBytes network

structure ArpFrame where
  destination : Mac
  source : Mac
  operation : UInt16
  senderMac : Mac
  senderIp : Ipv4Addr
  targetMac : Mac
  targetIp : Ipv4Addr
deriving DecidableEq

def readArp (frame : Bytes) : Option ArpFrame := do
  let (destination, frame) ← readBytes 6 frame
  let (source, frame) ← readBytes 6 frame
  let (etherType, frame) ← readU16 frame
  let (hardware, frame) ← readU16 frame
  let (protocol, frame) ← readU16 frame
  let (lengths, frame) ← readU16 frame
  let (operation, frame) ← readU16 frame
  let (senderMac, frame) ← readBytes 6 frame
  let (senderIp, frame) ← readBytes 4 frame
  let (targetMac, frame) ← readBytes 6 frame
  let (targetIp, _) ← readBytes 4 frame
  if etherType = 0x0806 ∧ hardware = 1 ∧ protocol = 0x0800 ∧ lengths = 0x0604 then
    return ⟨destination, source, operation, senderMac, ⟨senderIp⟩, targetMac, ⟨targetIp⟩⟩
  else none

structure Network where
  length : UInt8
  addr : Ipv6Addr
deriving DecidableEq

structure PrefixInformation where
  network : Network
  onLink : Bool
  autonomous : Bool
  valid : UInt32
  preferred : UInt32
deriving DecidableEq

inductive Preference
  | low
  | medium
  | high
deriving DecidableEq

/-- The two bits of a router advertisement; the value that is reserved stands for medium. -/
def preferenceOf (flags : UInt8) : Preference :=
  if flags &&& 0x18 = 0x08 then .high else if flags &&& 0x18 = 0x18 then .low else .medium

structure RouterAdvertisement where
  hopLimit : UInt8
  preference : Preference
  lifetime : UInt16
  reachable : UInt32
  retrans : UInt32
  options : List (UInt8 × Bytes)
deriving DecidableEq

def readPrefixInformation (data : Bytes) : Option PrefixInformation := do
  let (head, data) ← readBytes 2 data
  let (valid, data) ← readU32 data
  let (preferred, data) ← readU32 data
  let (_, data) ← readU32 data
  let (addr, _) ← readBytes 16 data
  let flags := head.toList.getD 1 0
  return ⟨⟨head.toList.headD 0, ⟨addr⟩⟩, flags &&& 0x80 ≠ 0, flags &&& 0x40 ≠ 0, valid, preferred⟩

def readRouterAdvertisement (packet : Bytes) : Option RouterAdvertisement := do
  let (head, packet) ← readBytes 6 packet
  let (lifetime, packet) ← readU16 packet
  let (reachable, packet) ← readU32 packet
  let (retrans, packet) ← readU32 packet
  let options ← readOptions packet
  if head.get 0 = 134 ∧ head.get 1 = 0 then
    return ⟨head.get 4, preferenceOf (head.get 5), lifetime, reachable, retrans, options⟩
  else none

def RouterAdvertisement.sourceMac (ra : RouterAdvertisement) : Option Mac := do
  let option ← ra.options.find? (fun option => option.1 == 1)
  let (mac, _) ← readBytes 6 option.2
  return mac

def RouterAdvertisement.prefixes (ra : RouterAdvertisement) : List PrefixInformation :=
  (ra.options.filter (fun option => option.1 == 3)).filterMap
    (fun option => readPrefixInformation option.2)

/-- The reply that is read says that the gateway is at the address, to all. -/
theorem readArp_build (mac : Mac) (ip : Ipv4Addr) : readArp (buildGratuitousArp mac ip) =
    some ⟨broadcast, mac, 2, mac, ip, broadcast, ip⟩ := by
  have hwords : ([0x08, 0x06] : Bytes) = u16ToBeBytes 0x0806 ∧
      ([0x00, 0x01] : Bytes) = u16ToBeBytes 1 ∧ ([0x08, 0x00] : Bytes) = u16ToBeBytes 0x0800 ∧
      ([6] ++ [4] : Bytes) = u16ToBeBytes 0x0604 ∧ ([0x00, 0x02] : Bytes) = u16ToBeBytes 2 := by
    decide
  obtain ⟨hether, hhardware, hprotocol, hlengths, hoperation⟩ := hwords
  have hpacket : buildGratuitousArp mac ip = broadcast.toList ++ (mac.toList ++
      (u16ToBeBytes 0x0806 ++ (u16ToBeBytes 1 ++ (u16ToBeBytes 0x0800 ++ (u16ToBeBytes 0x0604 ++
        (u16ToBeBytes 2 ++ (mac.toList ++ (ip.octets.toList ++ (broadcast.toList ++
          (ip.octets.toList ++ [])))))))))) := by
    rw [← hether, ← hhardware, ← hprotocol, ← hlengths, ← hoperation, buildGratuitousArp]
    simp only [List.append_assoc, List.append_nil]
  rw [hpacket, readArp]
  simp only [readBytes_append, readU16_append, Option.bind_eq_bind, Option.bind_some]
  rfl

theorem length_prefixBytes (network : Ipv6Addr) : (prefixBytes network).length = 16 := by
  simp [prefixBytes]

/-- The network of 64 bits that the address lies in. -/
def advertisedPrefix (network : Ipv6Addr) : Network :=
  ⟨64, ⟨⟨(prefixBytes network).toArray, length_prefixBytes network⟩⟩⟩

def prefixOption (network : Ipv6Addr) : Bytes :=
  [64, 0xc0] ++ (u32ToBeBytes 2592000 ++ (u32ToBeBytes 604800 ++
    (u32ToBeBytes 0 ++ prefixBytes network)))

theorem readPrefixInformation_prefixOption (network : Ipv6Addr) :
    readPrefixInformation (prefixOption network) =
      some ⟨advertisedPrefix network, true, true, 2592000, 604800⟩ := by
  have haddr : prefixBytes network = (advertisedPrefix network).addr.octets.toList ++ [] := by
    simp [advertisedPrefix]
  have hhead : ([64, 0xc0] : Bytes) = (#v[64, 0xc0] : Vector UInt8 2).toList := rfl
  have hflags : (0xc0 : UInt8) &&& 0x80 ≠ 0 ∧ (0xc0 : UInt8) &&& 0x40 ≠ 0 := by decide
  rw [prefixOption, hhead, haddr, readPrefixInformation]
  simp only [readBytes_append, readU32_append, Option.bind_eq_bind, Option.bind_some]
  simp [hflags, advertisedPrefix]

theorem readOptions_build (mac : Mac) (network : Ipv6Addr) :
    readOptions (1 :: 1 :: (mac.toList ++ 3 :: 4 :: (prefixOption network ++ []))) =
      some [(1, mac.toList), (3, prefixOption network)] := by
  have hmac : FillsUnits 1 mac.toList := by simp [FillsUnits]
  have hprefix : FillsUnits 4 (prefixOption network) := by
    simp [FillsUnits, prefixOption, length_prefixBytes, u32ToBeBytes]
  exact readOptions_cons hmac (readOptions_cons hprefix rfl)

/-- What a host reads: a router that is preferred, for half an hour, and the network. -/
theorem readRouterAdvertisement_build (mac : Mac) (network : Ipv6Addr) :
    readRouterAdvertisement (buildRouterAdvertisement mac network) =
      some ⟨64, .high, raRouterLifetime, 0, 0,
        [(1, mac.toList), (3, prefixOption network)]⟩ := by
  have hpacket : buildRouterAdvertisement mac network =
      (#v[134, 0, 0, 0, 64, 0x08] : Vector UInt8 6).toList ++ (u16ToBeBytes raRouterLifetime ++
        (u32ToBeBytes 0 ++ (u32ToBeBytes 0 ++
          (1 :: 1 :: (mac.toList ++ 3 :: 4 :: (prefixOption network ++ [])))))) := by
    simp [buildRouterAdvertisement, prefixOption]
  rw [hpacket, readRouterAdvertisement]
  simp only [readBytes_append, readU16_append, readU32_append, readOptions_build,
    Option.bind_eq_bind, Option.bind_some]
  rfl

theorem sourceMac_build (mac : Mac) (network : Ipv6Addr) (hopLimit : UInt8)
    (preference : Preference) (lifetime : UInt16) (reachable retrans : UInt32) :
    (RouterAdvertisement.mk hopLimit preference lifetime reachable retrans
      [(1, mac.toList), (3, prefixOption network)]).sourceMac = some mac := by
  have hread : readBytes 6 mac.toList = some (mac, []) := by
    simpa using readBytes_append mac []
  simp [RouterAdvertisement.sourceMac, hread]

theorem prefixes_build (mac : Mac) (network : Ipv6Addr) (hopLimit : UInt8)
    (preference : Preference) (lifetime : UInt16) (reachable retrans : UInt32) :
    (RouterAdvertisement.mk hopLimit preference lifetime reachable retrans
      [(1, mac.toList), (3, prefixOption network)]).prefixes =
        [⟨advertisedPrefix network, true, true, 2592000, 604800⟩] := by
  simp [RouterAdvertisement.prefixes, readPrefixInformation_prefixOption]

end TransProxy.Gateway
