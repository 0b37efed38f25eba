import TransProxy.Library.Dialogue
import TransProxy.Net.Addr

/-!
# What the proxy is asked for, and the operations that ask it

The target of a tunnel is the hostname, if it is safe to put into a request, and
the destination address otherwise.
-/
namespace TransProxy.Tunnel
open Library Net

/-- Letters, digits, `-` and `_`. -/
def isLabelByte (b : UInt8) : Bool :=
  (48 ≤ b && b ≤ 57) || (97 ≤ b && b ≤ 122) || (65 ≤ b && b ≤ 90) || b == 45 || b == 95

/-- One trailing dot is allowed, empty labels are not. -/
def isSafeProxyHostname (host : String) : Bool :=
  let bytes := strBytes host
  let name := if bytes.getLast? = some 46 then bytes.dropLast else bytes
  !name.isEmpty && bytes.length ≤ 253 &&
    (name.splitOn 46).all (fun label =>
      !label.isEmpty && label.length ≤ 63 && label.all isLabelByte)

def usableProxyHostname (hostname : Option String) : Option String :=
  hostname.filter isSafeProxyHostname

def proxyRequestHost (dest : SocketAddr) (hostname : Option String) : String :=
  match usableProxyHostname hostname with
  | some h => h
  | none =>
    match dest.ip with
    | .v6 ip => "[" ++ ip.display ++ "]"
    | ip => ip.display

def httpConnectRequest (dest : SocketAddr) (hostname : Option String) : String :=
  let host := proxyRequestHost dest hostname
  let port := toString dest.port.toNat
  "CONNECT " ++ host ++ ":" ++ port ++ " HTTP/1.1\r\nHost: " ++ host ++ ":" ++ port ++ "\r\n\r\n"

/-- Unfolded by hand, since the equation that Lean makes for it takes seconds. -/
theorem httpConnectRequest_eq (dest : SocketAddr) (hostname : Option String) :
    httpConnectRequest dest hostname =
      "CONNECT " ++ (proxyRequestHost dest hostname ++ ":" ++ toString dest.port.toNat) ++
        " HTTP/1.1\r\nHost: " ++
          (proxyRequestHost dest hostname ++ ":" ++ toString dest.port.toNat) ++ "\r\n\r\n" := by
  delta httpConnectRequest
  simp only [String.append_assoc]

/-- `ATYP`, address and port, of a CONNECT request as of a UDP header. -/
def targetAddress (dest : SocketAddr) (hostname : Option String) : Bytes :=
  (match usableProxyHostname hostname with
    | some h => [0x03, UInt8.ofNat (strBytes h).length] ++ strBytes h
    | none =>
      match dest.ip with
      | .v4 ip => 0x01 :: ip.octets.toList
      | .v6 ip => 0x04 :: ip.octets.toList) ++ u16ToBeBytes dest.port

def socks5ConnectRequest (dest : SocketAddr) (hostname : Option String) : Bytes :=
  [0x05, 0x01, 0x00] ++ targetAddress dest hostname

/-- The reads and writes of the handshakes, by what they are for. -/
inductive Op where
  | httpRequest
  | httpResponse
  | greeting
  | methodSelection
  | auth
  | authResponse
  | connectRequest
  | connectResponse
  | associateRequest
  | associateResponse
  | boundAddress
  | domainLength
  | boundDomain
  | boundIpv6
deriving DecidableEq

def Op.errors : Op → String × String
  | .httpRequest => ("Timeout sending CONNECT request", "Failed to send CONNECT request")
  | .httpResponse => ("Timeout waiting for CONNECT response", "Failed to read CONNECT response")
  | .greeting => ("Timeout sending SOCKS5 greeting", "Failed to send SOCKS5 greeting")
  | .methodSelection =>
    ("Timeout reading SOCKS5 method selection", "Failed to read SOCKS5 method selection")
  | .auth => ("Timeout sending SOCKS5 auth", "Failed to send SOCKS5 auth")
  | .authResponse =>
    ("Timeout reading SOCKS5 auth response", "Failed to read SOCKS5 auth response")
  | .connectRequest =>
    ("Timeout sending SOCKS5 CONNECT request", "Failed to send SOCKS5 CONNECT request")
  | .connectResponse =>
    ("Timeout reading SOCKS5 CONNECT response", "Failed to read SOCKS5 CONNECT response")
  | .associateRequest =>
    ("Timeout sending SOCKS5 UDP ASSOCIATE request", "Failed to send SOCKS5 UDP ASSOCIATE request")
  | .associateResponse =>
    ("Timeout reading SOCKS5 ASSOCIATE response", "Failed to read SOCKS5 ASSOCIATE response")
  | .boundAddress =>
    ("Timeout reading SOCKS5 bound address", "Failed to read SOCKS5 bound address")
  | .domainLength =>
    ("Timeout reading SOCKS5 domain length", "Failed to read SOCKS5 domain length")
  | .boundDomain => ("Timeout reading SOCKS5 bound domain", "Failed to read SOCKS5 bound domain")
  | .boundIpv6 =>
    ("Timeout reading SOCKS5 bound IPv6 address", "Failed to read SOCKS5 bound IPv6 address")

def ioError (op : Op) : Fault → String
  | .timedOut => op.errors.1
  | .failed => op.errors.2

/-- A dialogue on the control stream, with errors as they are reported. -/
abbrev Handshake := Dialogue Op String

end TransProxy.Tunnel
