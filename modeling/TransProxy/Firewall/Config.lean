import TransProxy.Config.Parse

/-!
# What the firewall rules are made from
-/
namespace TransProxy.Firewall
open Net

structure FirewallConfig where
  interface : String
  proxyPort : UInt16
  fwmark : Option UInt32
  upstreamAddr : Option SocketAddr
  ports : Option (List UInt16)
  /-- `none` leaves DNS alone. -/
  dnsListen : Option SocketAddr
  blockQuic : Bool
  proxyUdp : Bool
deriving DecidableEq

def FirewallConfig.fromConfig (env : Config.Env) (config : Config) : FirewallConfig :=
  { interface := config.interface
    proxyPort := config.listenAddr.port
    fwmark := if config.localTraffic then some config.fwmark else none
    upstreamAddr := if config.localTraffic then config.upstreamProxy.map (·.addr) else none
    ports := config.ports.map (·.ports)
    dnsListen := config.resolveDnsListen env
    blockQuic := !config.allowQuic
    proxyUdp := config.proxyUdpEnabled }

end TransProxy.Firewall
