import TransProxy.Net.Upstream
import TransProxy.Tunnel.HttpConnect

/-!
# The SOCKS5 handshakes

Negotiation of the authentication, then a CONNECT or UDP ASSOCIATE request and its
reply, all of them in reads of known size.
-/
namespace TransProxy.Tunnel
open Library Net Dialogue

def maxSocks5FieldLen : ℕ := 255

/-- `{:02x}`. -/
def hex2 (b : UInt8) : String :=
  String.ofList [Nat.digitChar (b.toNat / 16), Nat.digitChar (b.toNat % 16)]

def validateSocks5AuthField (label value : String) : Except String Unit :=
  let len := (strBytes value).length
  if len = 0 then .error ("SOCKS5: " ++ label ++ " cannot be empty")
  else if maxSocks5FieldLen < len then
    .error ("SOCKS5: " ++ label ++ " is " ++ toString len ++ " bytes, exceeds " ++
      toString maxSocks5FieldLen ++ "-byte limit")
  else .ok ()

def buildSocks5AuthRequest (username password : String) : Except String Bytes := do
  validateSocks5AuthField "username" username
  validateSocks5AuthField "password" password
  return [0x01, UInt8.ofNat (strBytes username).length] ++ strBytes username ++
    [UInt8.ofNat (strBytes password).length] ++ strBytes password

def socks5UsernameAuth (username password : String) : Handshake Unit :=
  match buildSocks5AuthRequest username password with
  | .error e => .fail e
  | .ok authReq => do
    sendAll .auth authReq
    let authResp ← readExact .authResponse 2
    if authResp.get 1 ≠ 0x00 then
      .fail ("SOCKS5: authentication failed (status 0x" ++ hex2 (authResp.get 1) ++ ")")
    else pure ()

def socks5Greeting : ProxyAuth → Bytes
  | .none => [0x05, 0x01, 0x00]
  | .usernamePassword _ _ => [0x05, 0x02, 0x00, 0x02]

def socks5NegotiateAuth (auth : ProxyAuth) : Handshake Unit := do
  sendAll .greeting (socks5Greeting auth)
  let methodResp ← readExact .methodSelection 2
  if methodResp[0] ≠ 0x05 then
    .fail ("SOCKS5: unexpected version " ++ toString methodResp[0] ++ " in method selection")
  else if methodResp[1] = 0x00 then pure ()
  else if methodResp[1] = 0x02 then
    match auth with
    | .usernamePassword username password => socks5UsernameAuth username password
    | .none => .fail "SOCKS5: server requires username/password auth but none configured"
  else if methodResp[1] = 0xFF then .fail "SOCKS5: no acceptable authentication methods"
  else .fail ("SOCKS5: unsupported auth method 0x" ++ hex2 methodResp[1])

def socks5ErrorMessage (code : UInt8) : String :=
  if code = 0x01 then "general SOCKS server failure"
  else if code = 0x02 then "connection not allowed by ruleset"
  else if code = 0x03 then "network unreachable"
  else if code = 0x04 then "host unreachable"
  else if code = 0x05 then "connection refused"
  else if code = 0x06 then "TTL expired"
  else if code = 0x07 then "command not supported"
  else if code = 0x08 then "address type not supported"
  else "unknown error"

/-- A domain is consumed and reported as an unspecified address. -/
def readSocks5BoundAddr (atyp : UInt8) : Handshake SocketAddr :=
  if atyp = 0x01 then do
    let buf ← readExact .boundAddress 6
    pure (.v4 (.new buf[0] buf[1] buf[2] buf[3]) (u16FromBeBytes buf[4] buf[5]))
  else if atyp = 0x03 then do
    let lenBuf ← readExact .domainLength 1
    let buf ← readExact .boundDomain (lenBuf[0].toNat + 2)
    pure (.v4 .unspecified (u16FromBeBytes buf[lenBuf[0].toNat] buf[lenBuf[0].toNat + 1]))
  else if atyp = 0x04 then do
    let buf ← readExact .boundIpv6 18
    pure (.v6 ⟨Vector.ofFn fun i : Fin 16 => buf[i.val]⟩ (u16FromBeBytes buf[16] buf[17]) 0 0)
  else .fail ("SOCKS5: unknown address type 0x" ++ hex2 atyp ++ " in response")

/-- What tells the requests apart: their operations, and their names in error texts. -/
structure Command where
  request : Op
  response : Op
  reply : String
  name : String

def socks5Command (cmd : Command) (req : Bytes) : Handshake SocketAddr := do
  sendAll cmd.request req
  let respHeader ← readExact cmd.response 4
  if respHeader[0] ≠ 0x05 then
    .fail ("SOCKS5: unexpected version " ++ toString respHeader[0] ++ " in " ++ cmd.reply)
  else if respHeader[1] ≠ 0x00 then
    .fail ("SOCKS5: " ++ cmd.name ++ " failed with status 0x" ++ hex2 respHeader[1] ++ " (" ++
      socks5ErrorMessage respHeader[1] ++ ")")
  else readSocks5BoundAddr respHeader[3]

def connectCommand : Command :=
  { request := .connectRequest, response := .connectResponse, reply := "CONNECT response"
    name := "CONNECT" }

def associateCommand : Command :=
  { request := .associateRequest, response := .associateResponse, reply := "ASSOCIATE response"
    name := "UDP ASSOCIATE" }

def socks5Connect (dest : SocketAddr) (hostname : Option String) : Handshake Unit := do
  let _ ← socks5Command connectCommand (socks5ConnectRequest dest hostname)
  pure ()

/-- CMD 0x03 from the wildcard source. -/
def socks5AssociateRequest : Bytes := [0x05, 0x03, 0x00, 0x01, 0, 0, 0, 0, 0, 0]

/-- `udp_associate` on the stream to the proxy. -/
def udpAssociate (proxy : UpstreamProxy) : Handshake SocketAddr :=
  match proxy.protocol with
  | .httpConnect => .fail "UDP ASSOCIATE requires a SOCKS5 upstream proxy"
  | .socks5 auth => do
    socks5NegotiateAuth auth
    let bnd ← socks5Command associateCommand socks5AssociateRequest
    pure (if bnd.ip.isUnspecified then .new proxy.addr.ip bnd.port else bnd)

/-- `connect_via_proxy` on the stream to the proxy; SOCKS5 leaves nothing over. -/
def connectViaProxy (proxy : UpstreamProxy) (dest : SocketAddr) (hostname : Option String) :
    Handshake Bytes :=
  match proxy.protocol with
  | .httpConnect => handshakeHttpConnect dest hostname
  | .socks5 auth => do
    socks5NegotiateAuth auth
    socks5Connect dest hostname
    pure []

/-- Reserved bytes and fragment number are zero. -/
def encodeSocks5Udp (dest : SocketAddr) (hostname : Option String) (payload : Bytes) : Bytes :=
  [0x00, 0x00, 0x00] ++ targetAddress dest hostname ++ payload

/-- Where the payload begins; fragments and short datagrams are refused. -/
def socks5UdpPayloadOffset (buf : Bytes) : Option ℕ :=
  if h : buf.length < 4 then none
  else if buf[2] ≠ 0x00 then none
  else
    let off :=
      if buf[3] = 0x01 then some (4 + 4 + 2)
      else if buf[3] = 0x04 then some (4 + 16 + 2)
      else if buf[3] = 0x03 then buf[4]?.map (fun len => 4 + 1 + len.toNat + 2)
      else none
    off.filter (fun off => decide (off ≤ buf.length))

end TransProxy.Tunnel
