import TransProxy.Tunnel.Encoders

/-!
# Datagrams of an association

The header in front of a payload, as it stands on the wire, and the offset behind it.
-/
namespace TransProxy.Tunnel
open Library Net

/-- The three forms of `ATYP` and `DST.ADDR`. A domain is any bytes that have their length
in one byte. -/
inductive HeaderAddress where
  | v4 (octets : Vector UInt8 4)
  | domain (name : Bytes) (short : name.length < 256)
  | v6 (octets : Vector UInt8 16)

structure UdpHeader where
  reserved : Vector UInt8 2
  frag : UInt8
  address : HeaderAddress
  port : UInt16

def HeaderAddress.encode : HeaderAddress → Bytes
  | .v4 octets => 0x01 :: octets.toList
  | .domain name _ => 0x03 :: UInt8.ofNat name.length :: name
  | .v6 octets => 0x04 :: octets.toList

def UdpHeader.encode (header : UdpHeader) : Bytes :=
  header.reserved.toList ++ [header.frag] ++ header.address.encode ++ u16ToBeBytes header.port

/-- The datagram starts with a whole header of that length, and is no fragment. -/
def BeginsWithHeader (buf : Bytes) (off : ℕ) : Prop :=
  ∃ header : UdpHeader, header.frag = 0 ∧ header.encode <+: buf ∧ header.encode.length = off

/-- The length of the address and the port behind `ATYP`. -/
def addressLength (atyp : UInt8) (rest : Bytes) : Option ℕ :=
  if atyp = 0x01 then some (4 + 2)
  else if atyp = 0x04 then some (16 + 2)
  else if atyp = 0x03 then rest.head?.map (fun len => 1 + len.toNat + 2)
  else none

theorem socks5UdpPayloadOffset_eq_some_iff {r r' frag atyp : UInt8} {rest : Bytes} {off : ℕ} :
    socks5UdpPayloadOffset (r :: r' :: frag :: atyp :: rest) = some off ↔
      frag = 0 ∧ ∃ n, addressLength atyp rest = some n ∧ n ≤ rest.length ∧ off = 4 + n := by
  have hlen : ¬(r :: r' :: frag :: atyp :: rest).length < 4 := by simp
  have hlen4 : (r :: r' :: frag :: atyp :: rest).length = 4 + rest.length := by
    simp only [List.length_cons]
    omega
  have hoff : (if atyp = 0x01 then some (4 + 4 + 2)
      else if atyp = 0x04 then some (4 + 16 + 2)
      else if atyp = 0x03 then rest[0]?.map (fun len => 4 + 1 + len.toNat + 2)
      else none) = (addressLength atyp rest).map (4 + ·) := by
    unfold addressLength
    split_ifs
    · rfl
    · rfl
    · cases rest with
      | nil => rfl
      | cons len rest =>
        simp only [List.getElem?_cons_zero, List.head?_cons, Option.map_some, Option.some.injEq]
        omega
    · rfl
  rw [socks5UdpPayloadOffset, dif_neg hlen]
  simp only [List.getElem_cons_succ, List.getElem_cons_zero, List.getElem?_cons_succ, hlen4, hoff]
  by_cases hfrag : frag = 0
  · simp only [hfrag, ne_eq, not_true_eq_false, if_false, true_and]
    cases addressLength atyp rest with
    | none => simp
    | some n =>
      rw [Option.map_some, Option.filter_eq_some_iff, Option.some.injEq, decide_eq_true_eq]
      constructor
      · rintro ⟨rfl, hle⟩
        exact ⟨n, rfl, by omega, rfl⟩
      · rintro ⟨m, hm, hle, rfl⟩
        obtain rfl := Option.some.inj hm
        exact ⟨rfl, by omega⟩
  · simp [hfrag]

section Headers
variable {rest tail : Bytes} {port : UInt16}

theorem exists_vector {n : ℕ} (h : n ≤ rest.length) :
    ∃ octets : Vector UInt8 n, rest = octets.toList ++ rest.drop n := by
  refine ⟨⟨(rest.take n).toArray, size_toArray_take h⟩, ?_⟩
  exact (List.take_append_drop n rest).symm

theorem exists_port {n : ℕ} (h : n + 2 ≤ rest.length) :
    ∃ port tail, rest.drop n = u16ToBeBytes port ++ tail := by
  have hlen : 2 ≤ (rest.drop n).length := by
    rw [List.length_drop]
    omega
  match rest.drop n, hlen with
  | hi :: lo :: tail, _ => exact ⟨u16FromBeBytes hi lo, tail, by rw [u16ToBeBytes_u16FromBeBytes]; rfl⟩

@[simp] theorem length_encode_v4 (octets : Vector UInt8 4) :
    (HeaderAddress.v4 octets).encode.length = 5 := by
  simp [HeaderAddress.encode]

@[simp] theorem length_encode_v6 (octets : Vector UInt8 16) :
    (HeaderAddress.v6 octets).encode.length = 17 := by
  simp [HeaderAddress.encode]

@[simp] theorem length_encode_domain (name : Bytes) (short : name.length < 256) :
    (HeaderAddress.domain name short).encode.length = name.length + 2 := rfl

@[simp] theorem length_port : (u16ToBeBytes port).length = 2 := rfl

/-- What stands behind the fragment number has the length that is computed for it, if it is
an address with a port. -/
theorem addressLength_encode (address : HeaderAddress) (port : UInt16) (tail : Bytes) :
    ∃ atyp rest n, address.encode ++ u16ToBeBytes port ++ tail = atyp :: rest ∧
      addressLength atyp rest = some n ∧ n ≤ rest.length ∧
        1 + n = (address.encode ++ u16ToBeBytes port).length := by
  cases address with
  | v4 octets =>
    refine ⟨_, _, 4 + 2, rfl, rfl, ?_, ?_⟩
    · simp
      omega
    · simp
  | v6 octets =>
    refine ⟨_, _, 16 + 2, rfl, rfl, ?_, ?_⟩
    · simp
      omega
    · simp
  | domain name short =>
    have hlen : (UInt8.ofNat name.length).toNat = name.length := UInt8.toNat_ofNat_of_lt' short
    refine ⟨_, _, 1 + name.length + 2, rfl, ?_, ?_, ?_⟩
    · simp [addressLength, hlen]
    · simp
      omega
    · simp
      omega

/-- And it is one. -/
theorem exists_address {atyp : UInt8} {n : ℕ} (h : addressLength atyp rest = some n)
    (hle : n ≤ rest.length) : ∃ (address : HeaderAddress) (port : UInt16) (tail : Bytes),
      atyp :: rest = address.encode ++ u16ToBeBytes port ++ tail ∧
        (address.encode ++ u16ToBeBytes port).length = 1 + n := by
  unfold addressLength at h
  split_ifs at h with h4 h16 hdomain
  · obtain rfl := Option.some.inj h
    obtain ⟨octets, hoctets⟩ := exists_vector (show 4 ≤ rest.length by omega)
    obtain ⟨port, tail, hport⟩ := exists_port hle
    refine ⟨.v4 octets, port, tail, ?_, by simp⟩
    rw [hoctets, hport, h4]
    simp [HeaderAddress.encode]
  · obtain rfl := Option.some.inj h
    obtain ⟨octets, hoctets⟩ := exists_vector (show 16 ≤ rest.length by omega)
    obtain ⟨port, tail, hport⟩ := exists_port hle
    refine ⟨.v6 octets, port, tail, ?_, by simp⟩
    rw [hoctets, hport, h16]
    simp [HeaderAddress.encode]
  · match rest, h with
    | len :: rest, h =>
      have hn : 1 + len.toNat + 2 = n := Option.some.inj h
      rw [List.length_cons] at hle
      have hname : (rest.take len.toNat).length = len.toNat := List.length_take_of_le (by omega)
      have hshort : (rest.take len.toNat).length < 256 := by
        rw [hname]
        exact len.toNat_lt
      obtain ⟨port, tail, hport⟩ := exists_port (show len.toNat + 2 ≤ rest.length by omega)
      refine ⟨.domain (rest.take len.toNat) hshort, port, tail, ?_, ?_⟩
      · rw [HeaderAddress.encode, hname, hdomain, UInt8.ofNat_toNat, List.append_assoc, ← hport]
        simp
      · rw [List.length_append, length_encode_domain, hname, length_port]
        omega

theorem length_header (header : UdpHeader) : header.encode.length =
    3 + (header.address.encode ++ u16ToBeBytes header.port).length := by
  simp [UdpHeader.encode]
  omega

/-- The offset is found exactly behind a whole header. -/
theorem socks5UdpPayloadOffset_iff (buf : Bytes) (off : ℕ) :
    socks5UdpPayloadOffset buf = some off ↔ BeginsWithHeader buf off := by
  constructor
  · intro h
    match buf, h with
    | r :: r' :: frag :: atyp :: rest, h =>
      obtain ⟨rfl, n, hn, hle, rfl⟩ := socks5UdpPayloadOffset_eq_some_iff.mp h
      obtain ⟨address, port, tail, hsplit, hlen⟩ := exists_address hn hle
      refine ⟨⟨#v[r, r'], 0, address, port⟩, rfl, ⟨tail, ?_⟩, ?_⟩
      · simp [UdpHeader.encode, hsplit]
      · rw [length_header, hlen]
        omega
  · rintro ⟨⟨reserved, frag, address, port⟩, rfl, ⟨tail, rfl⟩, rfl⟩
    obtain ⟨atyp, rest, n, hsplit, hn, hle, hlen⟩ := addressLength_encode address port tail
    obtain ⟨r, r', hreserved⟩ : ∃ r r', reserved.toList = [r, r'] := List.length_eq_two.mp (by simp)
    have hbuf : UdpHeader.encode ⟨reserved, 0, address, port⟩ ++ tail =
        r :: r' :: 0 :: atyp :: rest := by
      rw [← hsplit, UdpHeader.encode, hreserved]
      simp
    rw [hbuf, socks5UdpPayloadOffset_eq_some_iff, length_header, ← hlen]
    exact ⟨rfl, n, hn, hle, by omega⟩

end Headers

/-- The encoder writes a header in front of the payload. -/
theorem exists_header (dest : SocketAddr) (hostname : Option String) :
    ∃ address : HeaderAddress, targetAddress dest hostname =
      address.encode ++ u16ToBeBytes dest.port := by
  obtain ⟨target, htarget, -, haddress⟩ := exists_target dest hostname
  match target, htarget with
  | .name host, ⟨_, hhost⟩ =>
    have hshort : (strBytes host).length < 256 := Nat.lt_of_le_of_lt hhost.length_le (by decide)
    exact ⟨.domain (strBytes host) hshort, haddress⟩
  | .addr (.v4 ip), _ => exact ⟨.v4 ip.octets, haddress⟩
  | .addr (.v6 ip), _ => exact ⟨.v6 ip.octets, haddress⟩

/-- The offset is found exactly behind a whole header of a datagram that is no fragment, which
leaves it inside the datagram, and of an encoded datagram it leaves the payload. -/
theorem decapsulation :
    (∀ buf off, socks5UdpPayloadOffset buf = some off ↔ BeginsWithHeader buf off) ∧
    (∀ buf off, socks5UdpPayloadOffset buf = some off → off ≤ buf.length) ∧
    ∀ dest hostname payload, ∃ off,
      socks5UdpPayloadOffset (encodeSocks5Udp dest hostname payload) = some off ∧
        (encodeSocks5Udp dest hostname payload).drop off = payload := by
  refine ⟨socks5UdpPayloadOffset_iff, ?_, ?_⟩
  · intro buf off hoff
    obtain ⟨header, -, hprefix, rfl⟩ := (socks5UdpPayloadOffset_iff buf off).mp hoff
    exact hprefix.length_le
  · intro dest hostname payload
    obtain ⟨address, haddress⟩ := exists_header dest hostname
    have hencode : encodeSocks5Udp dest hostname payload =
        UdpHeader.encode ⟨#v[0, 0], 0, address, dest.port⟩ ++ payload := by
      simp [encodeSocks5Udp, UdpHeader.encode, haddress]
    refine ⟨(UdpHeader.encode ⟨#v[0, 0], 0, address, dest.port⟩).length, ?_, ?_⟩
    · rw [socks5UdpPayloadOffset_iff]
      exact ⟨_, rfl, hencode ▸ List.prefix_append _ _, rfl⟩
    · rw [hencode, List.drop_left]

end TransProxy.Tunnel
