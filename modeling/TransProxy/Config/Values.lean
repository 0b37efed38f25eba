import TransProxy.Net.AddrParse
import TransProxy.Net.Upstream

/-!
# The values of the options

What the `FromStr` implementations make of the text of a value. Name resolution
and the list of network interfaces come from the environment.
-/
namespace TransProxy.Config
open Library Net

structure Env where
  /-- The addresses of a host name and port. -/
  lookupHost : String → UInt16 → Except String (List SocketAddr)
  /-- The names of `getifaddrs`, if it succeeds, with the address of each entry that has
  one of a known family. -/
  ifaddrs : Option (List (Bytes × Option IpAddr))

/-- `to_socket_addrs`. -/
def toSocketAddrs (env : Env) (text : String) : Except String (List SocketAddr) :=
  match SocketAddr.parse text with
  | some addr => .ok [addr]
  | none =>
    match rsplitOnce ':' text.toList with
    | none => .error "invalid socket address"
    | some (host, portStr) =>
      match parseUnsigned 65536 portStr with
      | none => .error "invalid port value"
      | some port => env.lookupHost (String.ofList host) (UInt16.ofNat port)

inductive DnsUpstream where
  | udp (addr : SocketAddr)
  | https (url : String)
deriving DecidableEq

def resolveDnsUpstreamAddr (env : Env) (input : String) : Except String SocketAddr :=
  match SocketAddr.parse input with
  | some addr => .ok addr
  | none =>
    match toSocketAddrs env input with
    | .error e =>
      .error ("invalid DNS upstream '" ++ input ++ "': expected host:port or https:// URL: " ++ e)
    | .ok [] =>
      .error ("invalid DNS upstream '" ++ input ++ "': hostname resolved to no addresses")
    | .ok (addr :: _) => .ok addr

def DnsUpstream.fromStr (env : Env) (s : String) : Except String DnsUpstream :=
  match stripPrefix "https://" s with
  | some _ => .ok (.https s)
  | none => (resolveDnsUpstreamAddr env s).map .udp

def validateSocks5Credential (label value : String) : Except String Unit :=
  let len := (strBytes value).length
  if len = 0 then .error ("invalid socks5 " ++ label ++ ": cannot be empty")
  else if 255 < len then
    .error ("invalid socks5 " ++ label ++ ": " ++ toString len ++ " bytes exceeds 255-byte limit")
  else .ok ()

def parseUpstreamAddr (env : Env) (addr : String) : Except String SocketAddr :=
  match SocketAddr.parse addr with
  | some socketAddr => .ok socketAddr
  | none =>
    match toSocketAddrs env addr with
    | .error e => .error e
    | .ok [] => .error "hostname resolved to no addresses"
    | .ok (socketAddr :: _) => .ok socketAddr

/-- The credentials, if any, in front of the last `@`. -/
def parseUserinfo (rest : String) : Except String (ProxyAuth × String) :=
  match rsplitOnce '@' rest.toList with
  | none => .ok (.none, rest)
  | some (userinfo, addrPart) =>
    match splitOnce ':' userinfo with
    | none =>
      .error ("invalid socks5 userinfo '" ++ String.ofList userinfo ++ "': expected user:pass")
    | some (user, pass) => do
      validateSocks5Credential "username" (String.ofList user)
      validateSocks5Credential "password" (String.ofList pass)
      return (.usernamePassword (String.ofList user) (String.ofList pass), String.ofList addrPart)

def UpstreamProxy.fromStr (env : Env) (s : String) : Except String UpstreamProxy :=
  match stripPrefix "socks5://" s with
  | some rest => do
    let (auth, addrStr) ← parseUserinfo rest
    let addr ← (parseUpstreamAddr env addrStr).mapError
      (fun e => "invalid socks5 address '" ++ addrStr ++ "': " ++ e)
    return { protocol := .socks5 auth, addr }
  | none => do
    let addrStr := (stripPrefix "http://" s).getD s
    let addr ← (parseUpstreamAddr env addrStr).mapError
      (fun e => "invalid proxy address '" ++ addrStr ++ "': " ++ e)
    return { protocol := .httpConnect, addr }

/-- Ports in order, each once and none of them zero. -/
structure PortList where
  ports : List UInt16
deriving DecidableEq

/-- One part of a port list, given the ports before it. -/
def addPort (ports : List UInt16) (part : List Char) : Except String (List UInt16) :=
  let part := trim part
  match parseUnsigned 65536 part with
  | none => .error ("invalid port '" ++ String.ofList part ++ "': expected 1-65535")
  | some port =>
    if port = 0 then .error "port 0 is not valid"
    else
      let port := UInt16.ofNat port
      .ok (if port ∈ ports then ports else ports ++ [port])

def PortList.fromStr (s : String) : Except String PortList := do
  let ports ← (s.toList.splitOn ',').foldlM addPort []
  if ports = [] then .error "port list cannot be empty" else return ⟨ports⟩

example : PortList.fromStr "443, 80,443" = .ok ⟨[443, 80]⟩ := by decide

end TransProxy.Config
