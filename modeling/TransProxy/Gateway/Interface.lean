import TransProxy.Library.Lines
import TransProxy.Library.Words
import TransProxy.Net.Hex
import Mathlib.Algebra.GroupWithZero.Nat
import Mathlib.Data.List.Induction

/-!
# What the gateway reads from the system

The hardware address of the interface, the default gateway in the route table of the kernel and
the IPv6 addresses that the interface has.
-/
namespace TransProxy.Gateway
open Library Net

abbrev Mac := Vector UInt8 6

def parseOctet (part : List Char) : Except String UInt8 :=
  match fromStrRadix 16 256 part with
  | .ok n => .ok (UInt8.ofNat n)
  | .error e => .error ("invalid MAC octet: " ++ String.ofList part ++ ": " ++ e)

def parseMac (s : List Char) : Except String Mac :=
  match s.splitOn ':' with
  | [a, b, c, d, e, f] => do
    let a ← parseOctet a
    let b ← parseOctet b
    let c ← parseOctet c
    let d ← parseOctet d
    let e ← parseOctet e
    let f ← parseOctet f
    return #v[a, b, c, d, e, f]
  | _ => .error ("invalid MAC address: " ++ String.ofList s)

/-- `get_mac_address` on Linux, for what the file of the interface holds. -/
def macAddressOf (content : List Char) : Except String Mac := parseMac (trim content)

/-- The address as it is logged, and as the kernel writes it. -/
def macText (mac : Mac) : List Char := [':'].intercalate (mac.toList.map (hexByte false))

theorem parseOctet_hexByte (upper : Bool) (b : UInt8) : parseOctet (hexByte upper b) = .ok b := by
  have hb := b.toNat_lt
  have hvalue : ofBytes 0 [b] = b.toNat := by simp [ofBytes]
  have hsmall : ofBytes 0 [b] < 256 := by
    rw [hvalue]
    exact hb
  have hread := fromStrRadix_hexBytes upper (List.cons_ne_nil b []) hsmall
  rw [List.flatMap_singleton, hvalue] at hread
  simp only [parseOctet, hread, UInt8.ofNat_toNat]

theorem colon_notMem_hexByte (upper : Bool) (b : UInt8) : ':' ∉ hexByte upper b := by
  have hdigit : ∀ upper : Bool, ∀ n < 16, hexDigit upper n ≠ ':' := by decide
  have hb := b.toNat_lt
  simp only [hexByte, List.mem_cons, List.not_mem_nil, or_false, not_or]
  exact ⟨(hdigit upper _ (by omega)).symm, (hdigit upper _ (by omega)).symm⟩

theorem blank_hexByte (upper : Bool) (b : UInt8) :
    ∀ c ∈ hexByte upper b, isWhiteSpace c = false := by
  have hdigit : ∀ upper : Bool, ∀ n < 16, isWhiteSpace (hexDigit upper n) = false := by decide
  have hb := b.toNat_lt
  simp only [hexByte, List.mem_cons, List.not_mem_nil, or_false, forall_eq_or_imp, forall_eq]
  exact ⟨hdigit upper _ (by omega), hdigit upper _ (by omega)⟩

theorem exists_mac (mac : Mac) : ∃ a b c d e f, mac = #v[a, b, c, d, e, f] :=
  ⟨mac[0], mac[1], mac[2], mac[3], mac[4], mac[5], Vector.toList_inj.mp (toList_eq_ofFn mac)⟩

theorem parseMac_macText (mac : Mac) : parseMac (macText mac) = .ok mac := by
  have hsplit : (macText mac).splitOn ':' = mac.toList.map (hexByte false) := by
    apply List.splitOn_intercalate
    · intro part hpart
      obtain ⟨b, _, rfl⟩ := List.mem_map.mp hpart
      exact colon_notMem_hexByte false b
    · simp
  obtain ⟨a, b, c, d, e, f, rfl⟩ := exists_mac mac
  rw [parseMac, hsplit]
  simp only [List.map_cons, List.map_nil, Vector.toList_mk, parseOctet_hexByte]
  rfl

theorem blank_macText (mac : Mac) : ∀ c ∈ macText mac, isWhiteSpace c = false := by
  intro c hc
  rcases mem_intercalate hc with hsep | ⟨part, hpart, hmem⟩
  · obtain rfl := List.mem_singleton.mp hsep
    decide
  · obtain ⟨b, _, rfl⟩ := List.mem_map.mp hpart
    exact blank_hexByte false b c hmem

/-- The kernel ends the address with a line feed. -/
theorem macAddressOf_line (mac : Mac) : macAddressOf (macText mac ++ ['\n']) = .ok mac := by
  have htrim : trim (macText mac) = macText mac := trim_of_word (blank_macText mac)
  rw [macAddressOf, trim_append_of_blank (by decide), htrim, parseMac_macText]

/-- `Ipv4Addr::from(n.to_le_bytes())`. -/
def ofLeBytes (n : ℕ) : Ipv4Addr :=
  .new (UInt8.ofNat n) (UInt8.ofNat (n / 256)) (UInt8.ofNat (n / 65536))
    (UInt8.ofNat (n / 16777216))

/-- The loop of `parse_linux_default_gateway_ipv4` over the lines behind the first. -/
def defaultGatewayIn (iface : List Char) : List (List Char) → Except String Ipv4Addr
  | [] => .error ("no default gateway found for interface " ++ String.ofList iface)
  | line :: lines =>
    match splitWhitespace line with
    | name :: destination :: gateway :: _ =>
      if name ≠ iface then defaultGatewayIn iface lines
      else if destination ≠ "00000000".toList then defaultGatewayIn iface lines
      else
        match fromStrRadix 16 (2 ^ 32) gateway with
        | .ok gw => .ok (ofLeBytes gw)
        | .error e => .error ("invalid gateway hex: " ++ e)
    | _ => defaultGatewayIn iface lines

def parseLinuxDefaultGatewayIpv4 (iface routeTable : List Char) : Except String Ipv4Addr :=
  defaultGatewayIn iface ((strLines routeTable).drop 1)

/-- `%08X` of an address that stands in the table as a number of the machine. -/
def addressText (ip : Ipv4Addr) : List Char := ip.octets.toList.reverse.flatMap (hexByte true)

theorem blank_addressText (ip : Ipv4Addr) : ∀ c ∈ addressText ip, isWhiteSpace c = false := by
  intro c hc
  obtain ⟨b, _, hb⟩ := List.mem_flatMap.mp hc
  exact blank_hexByte true b c hb

theorem addressText_ne_nil (ip : Ipv4Addr) : addressText ip ≠ [] := by
  obtain ⟨a, b, c, d, rfl⟩ := ip.exists_new
  simp [addressText, Ipv4Addr.new, hexByte]

/-- The octets come back from the number that the digits spell. -/
theorem fromStrRadix_addressText (ip : Ipv4Addr) :
    ∃ n, fromStrRadix 16 (2 ^ 32) (addressText ip) = .ok n ∧ ofLeBytes n = ip := by
  obtain ⟨a, b, c, d, rfl⟩ := ip.exists_new
  have ha := a.toNat_lt
  have hb := b.toNat_lt
  have hc := c.toNat_lt
  have hd := d.toNat_lt
  have hvalue : ofBytes 0 [d, c, b, a] =
      256 * (256 * (256 * d.toNat + c.toNat) + b.toNat) + a.toNat := by
    simp [ofBytes]
  have hsmall : ofBytes 0 [d, c, b, a] < 2 ^ 32 := by
    rw [hvalue]
    omega
  refine ⟨ofBytes 0 [d, c, b, a], fromStrRadix_hexBytes true (by simp) hsmall, ?_⟩
  rw [hvalue, ofLeBytes]
  congr 1 <;> apply UInt8.toNat_inj.mp <;> rw [UInt8.toNat_ofNat'] <;> omega

theorem addressText_injective {ip ip' : Ipv4Addr} (h : addressText ip = addressText ip') :
    ip = ip' := by
  obtain ⟨n, hn, hip⟩ := fromStrRadix_addressText ip
  obtain ⟨m, hm, hip'⟩ := fromStrRadix_addressText ip'
  rw [h, hm] at hn
  rw [← hip, ← hip', Except.ok.inj hn]

/-- One line of the table of the kernel. -/
structure RouteEntry where
  iface : List Char
  destination : Ipv4Addr
  gateway : Ipv4Addr
  rest : List Char
  iface_ne : iface ≠ []
  iface_blank : ∀ c ∈ iface, isWhiteSpace c = false
  rest_line : '\n' ∉ rest

def RouteEntry.line (e : RouteEntry) : List Char :=
  e.iface ++ '\t' :: (addressText e.destination ++
    '\t' :: (addressText e.gateway ++ '\t' :: e.rest))

def RouteEntry.isDefault (iface : List Char) (e : RouteEntry) : Bool :=
  e.iface == iface && e.destination == .unspecified

def routeTable (header : List Char) (entries : List RouteEntry) : List Char :=
  (header :: entries.map RouteEntry.line).flatMap (fun line => line ++ ['\n'])

theorem newline_notMem_of_blank {word : List Char} (h : ∀ c ∈ word, isWhiteSpace c = false) :
    '\n' ∉ word := by
  intro hmem
  have hblank := h '\n' hmem
  revert hblank
  decide

theorem RouteEntry.newline_notMem_line (e : RouteEntry) : '\n' ∉ e.line := by
  have hiface := newline_notMem_of_blank e.iface_blank
  have hdestination := newline_notMem_of_blank (blank_addressText e.destination)
  have hgateway := newline_notMem_of_blank (blank_addressText e.gateway)
  simp [RouteEntry.line, hiface, hdestination, hgateway, e.rest_line]

theorem RouteEntry.splitWhitespace_line (e : RouteEntry) : splitWhitespace e.line =
    e.iface :: addressText e.destination :: addressText e.gateway :: splitWhitespace e.rest := by
  have htab : isWhiteSpace '\t' = true := by decide
  rw [RouteEntry.line, splitWhitespace_append e.iface_blank e.iface_ne htab,
    splitWhitespace_append (blank_addressText e.destination) (addressText_ne_nil _) htab,
    splitWhitespace_append (blank_addressText e.gateway) (addressText_ne_nil _) htab]

/-- What the loop reads on the lines of entries is the gateway of the first default entry. -/
theorem defaultGatewayIn_lines (iface : List Char) (entries : List RouteEntry) :
    defaultGatewayIn iface (entries.map (fun e => dropCarriageReturn e.line)) =
      match entries.find? (RouteEntry.isDefault iface) with
      | some e => .ok e.gateway
      | none => .error ("no default gateway found for interface " ++ String.ofList iface) := by
  induction entries with
  | nil => rfl
  | cons e entries ih =>
    have hzeros : "00000000".toList = addressText .unspecified := by decide
    have hdestination : addressText e.destination = addressText .unspecified ↔
        e.destination = .unspecified := ⟨addressText_injective, congrArg addressText⟩
    rw [List.map_cons, defaultGatewayIn, splitWhitespace_dropCarriageReturn,
      e.splitWhitespace_line, hzeros, List.find?_cons]
    by_cases hiface : e.iface = iface
    · by_cases hdefault : e.destination = .unspecified
      · obtain ⟨n, hn, hip⟩ := fromStrRadix_addressText e.gateway
        have htrue : e.isDefault iface = true := by simp [RouteEntry.isDefault, hiface, hdefault]
        simp [hiface, hdefault, hn, hip, htrue, -Nat.reducePow]
      · have hfalse : e.isDefault iface = false := by simp [RouteEntry.isDefault, hdefault]
        simp [hiface, hdestination, hdefault, hfalse, ih]
    · have hfalse : e.isDefault iface = false := by simp [RouteEntry.isDefault, hiface]
      simp [hiface, hfalse, ih]

theorem parse_routeTable (iface : List Char) {header : List Char} (hheader : '\n' ∉ header)
    (entries : List RouteEntry) : parseLinuxDefaultGatewayIpv4 iface (routeTable header entries) =
      match entries.find? (RouteEntry.isDefault iface) with
      | some e => .ok e.gateway
      | none => .error ("no default gateway found for interface " ++ String.ofList iface) := by
  have hlines : ∀ line ∈ header :: entries.map RouteEntry.line, '\n' ∉ line := by
    intro line hline
    rcases List.mem_cons.mp hline with rfl | hentry
    · exact hheader
    · obtain ⟨e, _, rfl⟩ := List.mem_map.mp hentry
      exact e.newline_notMem_line
  rw [parseLinuxDefaultGatewayIpv4, routeTable, strLines_flatMap_newline hlines, List.map_cons,
    List.drop_one, List.tail_cons, List.map_map]
  exact defaultGatewayIn_lines iface entries

def isLinkLocal (ip : Ipv6Addr) : Bool := ip.segments.headD 0 &&& 0xffc0 == 0xfe80

def isLoopback (ip : Ipv6Addr) : Bool := ip == .ofSegments [0, 0, 0, 0, 0, 0, 0, 1]

def isMulticast (ip : Ipv6Addr) : Bool := ip.octets.toList.headD 0 == 0xff

/-- The loop of `get_interface_ipv6` over the addresses of all interfaces. -/
def scanIpv6 (ifname : Bytes) (ifaddrs : List (Bytes × Option IpAddr)) :
    Option Ipv6Addr × Option Ipv6Addr :=
  ifaddrs.foldl (fun (linkLocal, network) (name, addr) =>
    match addr with
    | some (.v6 ip) =>
      if name ≠ ifname then (linkLocal, network)
      else if isLinkLocal ip then (some ip, network)
      else if !isLoopback ip && !isMulticast ip then (linkLocal, some ip)
      else (linkLocal, network)
    | _ => (linkLocal, network)) (none, none)

def selectRouterAdvertisementAddrs (linkLocal network : Option Ipv6Addr) :
    Except String (Ipv6Addr × Ipv6Addr) :=
  match linkLocal, network with
  | none, _ => .error "no link-local IPv6 address found"
  | some _, none => .error "no non-link-local IPv6 prefix address found"
  | some ll, some ip => .ok (ll, ip)

/-- `ifaddrs` is the answer of `getifaddrs`, for each entry a name and an address. -/
def getInterfaceIpv6 (iface : String) (ifaddrs : Option (List (Bytes × Option IpAddr))) :
    Except String (Ipv6Addr × Ipv6Addr) :=
  if 0 ∈ strBytes iface then
    .error ("nul byte found in provided data at position: " ++
      toString ((strBytes iface).idxOf 0))
  else
    match ifaddrs with
    | none => .error "getifaddrs failed"
    | some entries =>
      let (linkLocal, network) := scanIpv6 (strBytes iface) entries
      selectRouterAdvertisementAddrs linkLocal network

def ipv6Of (ifname : Bytes) (ifaddrs : List (Bytes × Option IpAddr)) : List Ipv6Addr :=
  ifaddrs.filterMap (fun (name, addr) =>
    match addr with
    | some (.v6 ip) => if name = ifname then some ip else none
    | _ => none)

def isGlobal (ip : Ipv6Addr) : Bool := !isLinkLocal ip && !isLoopback ip && !isMulticast ip

/-- The last address of each kind counts. -/
theorem scanIpv6_eq (ifname : Bytes) (ifaddrs : List (Bytes × Option IpAddr)) :
    scanIpv6 ifname ifaddrs = (((ipv6Of ifname ifaddrs).filter isLinkLocal).getLast?,
      ((ipv6Of ifname ifaddrs).filter isGlobal).getLast?) := by
  induction ifaddrs using List.reverseRecOn with
  | nil => rfl
  | append_singleton entries e ih =>
    obtain ⟨name, addr⟩ := e
    have hsplit : ipv6Of ifname (entries ++ [(name, addr)]) =
        ipv6Of ifname entries ++ ipv6Of ifname [(name, addr)] := List.filterMap_append
    rw [hsplit, scanIpv6, List.foldl_concat, ← scanIpv6, ih]
    match addr with
    | none => simp [ipv6Of]
    | some (.v4 ip) => simp [ipv6Of]
    | some (.v6 ip) =>
      by_cases hname : name = ifname
      · cases hlocal : isLinkLocal ip <;> cases hloop : isLoopback ip <;>
          cases hmulti : isMulticast ip <;>
          simp [ipv6Of, hname, hlocal, hloop, hmulti, isGlobal]
      · simp [ipv6Of, hname]

theorem unspecified_not_isLinkLocal : isLinkLocal .unspecified = false := by decide

end TransProxy.Gateway
