import TransProxy.Library.Fields
import TransProxy.Library.HttpHead
import TransProxy.Library.Text
import TransProxy.Net.AddrText
import TransProxy.Tunnel.SafeHostname
import TransProxy.Tunnel.Socks5

/-!
# One target for the three encoders

What the HTTP request, the SOCKS5 request and the header of a SOCKS5 datagram say when
they are read back.
-/
namespace TransProxy.Tunnel
open Library Net

inductive Endpoint where
  | name (host : String)
  | addr (ip : IpAddr)

/-- The hostname if it is one, and the address of the destination otherwise. -/
def IsTarget (dest : SocketAddr) (hostname : Option String) : Endpoint → Prop
  | .name host => hostname = some host ∧ IsHostname host
  | .addr ip => ip = dest.ip ∧ ∀ host, hostname = some host → ¬ IsHostname host

def Endpoint.text : Endpoint → String
  | .name host => host
  | .addr (.v4 ip) => ip.display
  | .addr (.v6 ip) => "[" ++ ip.display ++ "]"

def Endpoint.authority (target : Endpoint) (port : UInt16) : String :=
  target.text ++ ":" ++ toString port.toNat

/-- What stands before the last colon, and the port behind it. -/
def readAuthority (authority : String) : Option (String × UInt16) := do
  let (host, port) ← rsplitOnce ':' authority.toList
  let port ← parseUnsigned 65536 port
  some (String.ofList host, UInt16.ofNat port)

def readAddress : Bytes → Option (Endpoint × Bytes)
  | 0x01 :: input => do
    let (octets, rest) ← readBytes 4 input
    some (.addr (.v4 ⟨octets⟩), rest)
  | 0x03 :: input => do
    let (name, rest) ← readField input
    let host ← fromUtf8 name
    some (.name host, rest)
  | 0x04 :: input => do
    let (octets, rest) ← readBytes 16 input
    some (.addr (.v6 ⟨octets⟩), rest)
  | _ => none

def readTarget (input : Bytes) : Option (Endpoint × UInt16 × Bytes) := do
  let (target, input) ← readAddress input
  let (port, rest) ← readU16 input
  some (target, port, rest)

def readConnect : Bytes → Option (Endpoint × UInt16 × Bytes)
  | 0x05 :: 0x01 :: 0x00 :: input => readTarget input
  | _ => none

/-- A datagram that is no fragment. -/
def readDatagram : Bytes → Option (Endpoint × UInt16 × Bytes)
  | 0x00 :: 0x00 :: 0x00 :: input => readTarget input
  | _ => none

def Endpoint.address : Endpoint → Bytes
  | .name host => [0x03, UInt8.ofNat (strBytes host).length] ++ strBytes host
  | .addr (.v4 ip) => 0x01 :: ip.octets.toList
  | .addr (.v6 ip) => 0x04 :: ip.octets.toList

/-- All encoders choose the same target. -/
theorem exists_target (dest : SocketAddr) (hostname : Option String) :
    ∃ target : Endpoint, IsTarget dest hostname target ∧
      proxyRequestHost dest hostname = target.text ∧
        targetAddress dest hostname = target.address ++ u16ToBeBytes dest.port := by
  rcases husable : usableProxyHostname hostname with _ | host
  · have hnone : ∀ host, hostname = some host → ¬ IsHostname host := by
      rintro host rfl hhost
      rw [usableProxyHostname, Option.filter_some, if_pos ((isSafeProxyHostname_iff host).mpr hhost)]
        at husable
      cases husable
    refine ⟨.addr dest.ip, ⟨rfl, hnone⟩, ?_⟩
    rw [proxyRequestHost, targetAddress, husable]
    cases dest <;> exact ⟨rfl, rfl⟩
  · obtain ⟨rfl, hsafe⟩ := Option.filter_eq_some_iff.mp husable
    refine ⟨.name host, ⟨rfl, (isSafeProxyHostname_iff host).mp hsafe⟩, ?_⟩
    rw [proxyRequestHost, targetAddress, husable]
    exact ⟨rfl, rfl⟩

variable {dest : SocketAddr} {hostname : Option String} {target : Endpoint}

theorem readTarget_append (h : IsTarget dest hostname target) (port : UInt16) (rest : Bytes) :
    readTarget (target.address ++ (u16ToBeBytes port ++ rest)) = some (target, port, rest) := by
  have haddress : readAddress (target.address ++ (u16ToBeBytes port ++ rest)) =
      some (target, u16ToBeBytes port ++ rest) := by
    match target, h with
    | .name host, ⟨_, hhost⟩ =>
      have hlen : (strBytes host).length < 256 := Nat.lt_of_le_of_lt hhost.length_le (by decide)
      have hname : fromUtf8 (strBytes host) = some host := fromUtf8_eq_some_iff.mpr rfl
      simp [Endpoint.address, readAddress, readField_append hlen, hname]
    | .addr (.v4 ip), _ => simp [Endpoint.address, readAddress, readBytes_append]
    | .addr (.v6 ip), _ => simp [Endpoint.address, readAddress, readBytes_append]
  rw [readTarget, haddress]
  simp [readU16_append]

theorem text_visible (h : IsTarget dest hostname target) : ∀ c ∈ target.text.toList, IsVisible c := by
  match target, h with
  | .name host, ⟨_, hhost⟩ => exact hhost.visible
  | .addr (.v4 ip), _ => exact fun c hc => (ip.isAddrChar_display c hc).visible
  | .addr (.v6 ip), _ =>
    have hopen : IsVisible '[' ∧ IsVisible ']' := by decide
    have hip : ∀ c ∈ ip.display.toList, IsVisible c := fun c hc =>
      (ip.isAddrChar_display c hc).visible
    simpa [Endpoint.text, or_imp, forall_and, hopen] using hip

theorem digits_visible (port : UInt16) : ∀ c ∈ (toString port.toNat).toList, c ≠ ':' ∧ IsVisible c := by
  intro c hc
  rw [toList_toString] at hc
  refine ⟨?_, (isAddrChar_toDigits_ten hc).visible⟩
  rintro rfl
  exact absurd (Nat.isDigit_of_mem_toDigits (by decide) (by decide) hc) (by decide)

/-- The last colon is the one before the port. -/
theorem readAuthority_authority (target : Endpoint) (port : UInt16) :
    readAuthority (target.authority port) = some (target.text, port) := by
  have hcolon : ':' ∉ (toString port.toNat).toList := fun h => (digits_visible port ':' h).1 rfl
  have hcut : rsplitOnce ':' (target.authority port).toList =
      some (target.text.toList, (toString port.toNat).toList) := by
    rw [Endpoint.authority, String.toList_append, String.toList_append, List.append_assoc]
    exact rsplitOnce_append hcolon target.text.toList
  have hport : parseUnsigned 65536 (Nat.toDigits 10 port.toNat) = some port.toNat :=
    parseUnsigned_toDigits port.toNat_lt
  rw [readAuthority, hcut, toList_toString]
  simp [hport]

theorem token_authority (h : IsTarget dest hostname target) (port : UInt16) :
    RequestHead.Token (strBytes (target.authority port)) := by
  apply RequestHead.token_of_visible
  · simp [Endpoint.authority]
  · intro c hc
    rw [Endpoint.authority, String.toList_append, String.toList_append, List.mem_append,
      List.mem_append] at hc
    rcases hc with (htext | hcolon) | hport
    · exact text_visible h c htext
    · rw [List.mem_singleton.mp hcolon]
      decide
    · exact (digits_visible port c hport).2

/-- The request line and the one header. -/
def connectHead (authority : String) : RequestHead :=
  { method := strBytes "CONNECT", target := strBytes authority, version := strBytes "HTTP/1.1"
    headers := [(strBytes "Host", strBytes authority)] }

theorem parse_connectHead {authority : String} (h : RequestHead.Token (strBytes authority)) :
    RequestHead.parse (RequestHead.render (connectHead authority)) =
      some (connectHead authority, []) := by
  have hwell : RequestHead.WellFormed (connectHead authority) :=
    { method := RequestHead.token_of_visible (by decide) (List.all_iff_forall_prop.mp (by decide))
      target := h
      version := RequestHead.token_of_visible (by decide) (List.all_iff_forall_prop.mp (by decide))
      headers := by
        intro header hheader
        rw [List.mem_singleton.mp hheader]
        have hcolon : 58 ∉ strBytes "Host" := by decide
        exact ⟨⟨RequestHead.token_of_visible (by decide)
          (List.all_iff_forall_prop.mp (by decide)), hcolon⟩, h⟩ }
  simpa using RequestHead.parse_render hwell []

theorem strBytes_httpConnectRequest (htext : proxyRequestHost dest hostname = target.text) :
    strBytes (httpConnectRequest dest hostname) =
      RequestHead.render (connectHead (target.authority dest.port)) := by
  have hfirst : strBytes "CONNECT " = strBytes "CONNECT" ++ [32] := by decide
  have hlines : strBytes " HTTP/1.1\r\nHost: " = [32] ++ strBytes "HTTP/1.1" ++
      RequestHead.newline ++ strBytes "Host" ++ [58, 32] := by decide
  have hend : strBytes "\r\n\r\n" = RequestHead.newline ++ RequestHead.newline := by decide
  rw [httpConnectRequest_eq, htext, ← Endpoint.authority]
  simp [strBytes_append, hfirst, hlines, hend, RequestHead.render, RequestHead.texts, connectHead,
    RequestHead.renderHeader, List.append_assoc]

/-- Whatever hostname is given, the three encoders name the same target: the HTTP request is
one CONNECT line and one Host header, and the two SOCKS5 messages end where they should. -/
theorem encoders_agree (dest : SocketAddr) (hostname : Option String) (payload : Bytes) :
    ∃ target, IsTarget dest hostname target ∧
      (RequestHead.parse (strBytes (httpConnectRequest dest hostname)) =
          some (connectHead (target.authority dest.port), []) ∧
        readAuthority (target.authority dest.port) = some (target.text, dest.port)) ∧
      readConnect (socks5ConnectRequest dest hostname) = some (target, dest.port, []) ∧
      readDatagram (encodeSocks5Udp dest hostname payload) = some (target, dest.port, payload) := by
  obtain ⟨target, htarget, htext, haddress⟩ := exists_target dest hostname
  refine ⟨target, htarget, ⟨?_, readAuthority_authority target dest.port⟩, ?_, ?_⟩
  · rw [strBytes_httpConnectRequest htext, parse_connectHead (token_authority htarget dest.port)]
  · have hread := readTarget_append htarget dest.port []
    rw [List.append_nil] at hread
    rw [socks5ConnectRequest, haddress]
    exact hread
  · rw [encodeSocks5Udp, haddress, List.append_assoc, List.append_assoc]
    exact readTarget_append htarget dest.port payload

end TransProxy.Tunnel
