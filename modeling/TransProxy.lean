import TransProxy.Library.Bytes
import TransProxy.Library.Layout
import TransProxy.Library.HashMap
import TransProxy.Library.Transition
import TransProxy.Net.Addr
import TransProxy.Dns.Wire
import TransProxy.Dns.Table
import TransProxy.Library.LastWrite
import TransProxy.Dns.TableRefinement
import TransProxy.Dns.Pending
import TransProxy.Dns.Udp
import TransProxy.Dns.UdpSafety
import TransProxy.Dns.Question
import TransProxy.Dns.UdpDelivery
import TransProxy.Dns.UdpMatching
import TransProxy.Proxy.Conservation
import TransProxy.Proxy.Progress
import TransProxy.Tunnel.Request
import TransProxy.Tunnel.HttpConnect
import TransProxy.Proxy.Connection
import TransProxy.Tunnel.Socks5
import TransProxy.Tunnel.Socks5Safety
import TransProxy.Udp.Session
import TransProxy.Udp.Ownership
import TransProxy.Library.CommandLine
import TransProxy.Net.AddrParse
import TransProxy.Config.Values
import TransProxy.Config.Parse
import TransProxy.Firewall.Config
import TransProxy.Service.Args
import TransProxy.Service.Agreement
import TransProxy.Dns.Cache
import TransProxy.Dns.Doh
import TransProxy.Dns.DohReplies
import TransProxy.Dns.DohSent
import TransProxy.Dns.DohCache
import TransProxy.Dns.DohTransactionId
import TransProxy.Library.Fairness
import TransProxy.Dns.DohCoalescing
import TransProxy.Dns.Forwarder
import TransProxy.Proxy.OrigDest
import TransProxy.Proxy.Target
import TransProxy.Proxy.Hostname
import TransProxy.Library.Script
import TransProxy.Library.PacketFilter
import TransProxy.Firewall.Nftables
import TransProxy.Firewall.Setup
import TransProxy.Firewall.Packets
import TransProxy.Firewall.Frames
import TransProxy.Firewall.Installed
import TransProxy.Firewall.History
import TransProxy.Firewall.RuleEffects
import TransProxy.Firewall.QuicLeak
import TransProxy.Firewall.Progress
import TransProxy.Firewall.GatewayTraffic
import TransProxy.Firewall.OwnTraffic
import TransProxy.Library.Crash
import TransProxy.Firewall.Cleanup
import TransProxy.Firewall.Repeated
import TransProxy.Firewall.Pf
import TransProxy.Firewall.PfTraffic
import TransProxy.Firewall.DnsInterception
import TransProxy.Library.Ascii
import TransProxy.Library.HttpHead
import TransProxy.Library.Fields
import TransProxy.Net.AddrText
import TransProxy.Tunnel.SafeHostname
import TransProxy.Tunnel.Encoders
import TransProxy.Library.Percent
import TransProxy.Dns.ProxyUrl
import TransProxy.Config.Credentials
import TransProxy.Library.Window
import TransProxy.Sni.ClientHello
import TransProxy.Sni.Stable
import TransProxy.Sni.Peek
import TransProxy.Dns.TcpFrames
import TransProxy.Dns.TcpFraming
import TransProxy.Dns.TcpForward
import TransProxy.Dns.TcpReplies
import TransProxy.Dns.Stripping
import TransProxy.Dns.StripAaaa
import TransProxy.Library.Shell
import TransProxy.Service.Commands
import TransProxy.Service.Lifecycle
import TransProxy.Dns.Format
import TransProxy.Dns.Addresses
import TransProxy.Dns.LeastTtl
import TransProxy.Dns.Rewriting
import TransProxy.Dns.Aging
import TransProxy.Dns.Freshness
import TransProxy.Dns.EmptyAnswers
import TransProxy.Dns.PendingNewest
import TransProxy.Dns.PendingExpiry
import TransProxy.Dns.Refresh
import TransProxy.Sni.Hello
import TransProxy.Tunnel.Datagrams
import TransProxy.Firewall.Coverage
import TransProxy.Library.Lines
import TransProxy.Firewall.PfConf
import TransProxy.Library.UnitFile
import TransProxy.Service.UnitQuoting
import TransProxy.Library.ShellWords
import TransProxy.Service.ShellQuoting
import TransProxy.Service.FilteredConfig
import TransProxy.Dns.NameWalkers
import TransProxy.Library.Checked
import TransProxy.Dns.RawWalkers
import TransProxy.Sni.RawParser
import TransProxy.Daemon.Readiness
import TransProxy.Daemon.Progress
import TransProxy.Service.Completed
import TransProxy.Gateway.Advertised
import TransProxy.Udp.Datagrams
import TransProxy.Firewall.PfInstalled
import TransProxy.Proxy.Transparency
import TransProxy.Config.Displayed
import TransProxy.Firewall.DnsDelivery
import TransProxy.Service.Modes
import TransProxy.Proxy.NameSource
import TransProxy.Server.Exit
import TransProxy.Proxy.Interception
