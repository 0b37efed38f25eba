import TransProxy.Net.Addr

/-!
# The upstream proxy
-/
namespace TransProxy.Net

inductive ProxyAuth where
  | none
  | usernamePassword (username password : String)
deriving DecidableEq

inductive ProxyProtocol where
  | httpConnect
  | socks5 (auth : ProxyAuth)
deriving DecidableEq

structure UpstreamProxy where
  protocol : ProxyProtocol
  addr : SocketAddr
deriving DecidableEq

def UpstreamProxy.isSocks5 (proxy : UpstreamProxy) : Bool :=
  match proxy.protocol with
  | .socks5 _ => true
  | .httpConnect => false

end TransProxy.Net
