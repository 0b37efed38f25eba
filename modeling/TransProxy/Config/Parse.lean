import TransProxy.Config.Values
import TransProxy.Library.CommandLine

/-!
# The command line

`Config` as it is parsed from the arguments behind the program name, for vectors in
the standard syntax. A repeated option is an error, and so is a value that the
parser of its type refuses.
-/
namespace TransProxy
open Library Net CommandLine

inductive Platform where
  | linux
  | macos

def Platform.defaultInterface : Platform → String
  | .linux => "eth0"
  | .macos => "en0"

structure Config where
  listenAddr : SocketAddr
  upstreamProxy : Option UpstreamProxy
  logLevel : String
  dns : Bool
  dnsListen : Option SocketAddr
  dnsUpstream : Config.DnsUpstream
  dnsStripAaaa : Bool
  interface : String
  daemon : Bool
  pidFile : String
  logFile : Option String
  localTraffic : Bool
  proxyUser : String
  fwmark : UInt32
  gateway : Bool
  sni : Bool
  ports : Option Config.PortList
  allowQuic : Bool
  install : Bool
  uninstall : Bool
  start : Bool
  stop : Bool
  setupFirewall : Bool
  teardownFirewall : Bool

namespace Config

/-- One for each field. -/
inductive Opt where
  | listenAddr
  | upstreamProxy
  | logLevel
  | dns
  | dnsListen
  | dnsUpstream
  | dnsStripAaaa
  | interface
  | daemon
  | pidFile
  | logFile
  | localTraffic
  | proxyUser
  | fwmark
  | gateway
  | sni
  | ports
  | allowQuic
  | install
  | uninstall
  | start
  | stop
  | setupFirewall
  | teardownFirewall
deriving DecidableEq

def optionTable : List (String × Opt × Arity) :=
  [("--listen-addr", .listenAddr, .value),
    ("--upstream-proxy", .upstreamProxy, .value),
    ("--log-level", .logLevel, .value),
    ("--dns", .dns, .switch),
    ("--dns-listen", .dnsListen, .value),
    ("--dns-upstream", .dnsUpstream, .value),
    ("--dns-strip-aaaa", .dnsStripAaaa, .switch),
    ("--interface", .interface, .value),
    ("--daemon", .daemon, .switch),
    ("-d", .daemon, .switch),
    ("--pid-file", .pidFile, .value),
    ("--log-file", .logFile, .value),
    ("--local-traffic", .localTraffic, .switch),
    ("--proxy-user", .proxyUser, .value),
    ("--fwmark", .fwmark, .value),
    ("--gateway", .gateway, .switch),
    ("--sni", .sni, .switch),
    ("--ports", .ports, .value),
    ("--allow-quic", .allowQuic, .switch),
    ("--install", .install, .switch),
    ("--uninstall", .uninstall, .switch),
    ("--start", .start, .switch),
    ("--stop", .stop, .switch),
    ("--setup-firewall", .setupFirewall, .switch),
    ("--teardown-firewall", .teardownFirewall, .switch)]

/-- What the table says of a name. -/
def findOption (name : String) : Option (Opt × Arity) :=
  (optionTable.find? (fun e => e.1 = name)).map (fun e => e.2)

theorem mem_optionTable_of_find {name : String} {e : Opt × Arity} (h : findOption name = some e) :
    (name, e) ∈ optionTable := by
  obtain ⟨⟨name', e'⟩, hfind, rfl⟩ := Option.map_eq_some_iff.mp h
  have hname : name' = name := by simpa using List.find?_some hfind
  subst hname
  exact List.mem_of_find?_eq_some hfind

def spec : Spec Opt where
  find := findOption
  noEq name e h := by
    have hall : ∀ e ∈ optionTable, '=' ∉ e.1.toList := by decide
    exact hall (name, e) (mem_optionTable_of_find h)
  dash name e h := by
    have hall : ∀ e ∈ optionTable, looksLikeFlag e.1 = true := by decide
    exact hall (name, e) (mem_optionTable_of_find h)

/-- A `u32` is read as a signed number that has to be in range. -/
def parseU32 (text : List Char) : Option UInt32 :=
  match text with
  | '-' :: digits => if digits ≠ [] ∧ digits.all (· == '0') then some 0 else none
  | _ => (parseUnsigned 4294967296 text).map UInt32.ofNat

/-- A path must not be empty. -/
def parsePath (text : String) : Option String := if text = "" then none else some text

/-- The fields, from the values and switches that are given and the defaults. -/
def ofValues (env : Env) (platform : Platform) (value : Opt → Option String) (flag : Opt → Bool) :
    Option Config := do
  let listenAddr ← SocketAddr.parse ((value .listenAddr).getD "0.0.0.0:8443")
  let upstreamProxy ← (value .upstreamProxy).mapM (fun s => (UpstreamProxy.fromStr env s).toOption)
  let dnsListen ← (value .dnsListen).mapM SocketAddr.parse
  let dnsUpstream ← (DnsUpstream.fromStr env
    ((value .dnsUpstream).getD "https://cloudflare-dns.com/dns-query")).toOption
  let pidFile ← parsePath ((value .pidFile).getD "/var/run/trans_proxy.pid")
  let logFile ← (value .logFile).mapM parsePath
  let fwmark ← parseU32 ((value .fwmark).getD "1").toList
  let ports ← (value .ports).mapM (fun s => (PortList.fromStr s).toOption)
  return {
    listenAddr
    upstreamProxy
    logLevel := (value .logLevel).getD "info"
    dns := flag .dns
    dnsListen
    dnsUpstream
    dnsStripAaaa := flag .dnsStripAaaa
    interface := (value .interface).getD platform.defaultInterface
    daemon := flag .daemon
    pidFile
    logFile
    localTraffic := flag .localTraffic
    proxyUser := (value .proxyUser).getD "trans_proxy"
    fwmark
    gateway := flag .gateway
    sni := flag .sni
    ports
    allowQuic := flag .allowQuic
    install := flag .install
    uninstall := flag .uninstall
    start := flag .start
    stop := flag .stop
    setupFirewall := flag .setupFirewall
    teardownFirewall := flag .teardownFirewall }

/-- What each field comes from. -/
structure Given (env : Env) (platform : Platform) (value : Opt → Option String)
    (flag : Opt → Bool) (c : Config) : Prop where
  listenAddr : SocketAddr.parse ((value .listenAddr).getD "0.0.0.0:8443") = some c.listenAddr
  upstreamProxy : (value .upstreamProxy).mapM (fun s => (UpstreamProxy.fromStr env s).toOption) =
    some c.upstreamProxy
  logLevel : c.logLevel = (value .logLevel).getD "info"
  dns : c.dns = flag .dns
  dnsListen : (value .dnsListen).mapM SocketAddr.parse = some c.dnsListen
  dnsUpstream : (DnsUpstream.fromStr env
    ((value .dnsUpstream).getD "https://cloudflare-dns.com/dns-query")).toOption =
      some c.dnsUpstream
  dnsStripAaaa : c.dnsStripAaaa = flag .dnsStripAaaa
  interface : c.interface = (value .interface).getD platform.defaultInterface
  daemon : c.daemon = flag .daemon
  pidFile : parsePath ((value .pidFile).getD "/var/run/trans_proxy.pid") = some c.pidFile
  logFile : (value .logFile).mapM parsePath = some c.logFile
  localTraffic : c.localTraffic = flag .localTraffic
  proxyUser : c.proxyUser = (value .proxyUser).getD "trans_proxy"
  fwmark : parseU32 ((value .fwmark).getD "1").toList = some c.fwmark
  gateway : c.gateway = flag .gateway
  sni : c.sni = flag .sni
  ports : (value .ports).mapM (fun s => (PortList.fromStr s).toOption) = some c.ports
  allowQuic : c.allowQuic = flag .allowQuic
  install : c.install = flag .install
  uninstall : c.uninstall = flag .uninstall
  start : c.start = flag .start
  stop : c.stop = flag .stop
  setupFirewall : c.setupFirewall = flag .setupFirewall
  teardownFirewall : c.teardownFirewall = flag .teardownFirewall

theorem ofValues_eq_some_iff {env : Env} {platform : Platform} {value : Opt → Option String}
    {flag : Opt → Bool} {c : Config} :
    ofValues env platform value flag = some c ↔ Given env platform value flag c := by
  simp only [ofValues, Option.bind_eq_bind, Option.bind_eq_some_iff, Option.pure_def,
    Option.some.injEq]
  constructor
  · rintro ⟨_, h1, _, h2, _, h3, _, h4, _, h5, _, h6, _, h7, _, h8, rfl⟩
    constructor <;> first | assumption | rfl
  · intro h
    refine ⟨_, h.listenAddr, _, h.upstreamProxy, _, h.dnsListen, _, h.dnsUpstream, _, h.pidFile, _,
      h.logFile, _, h.fwmark, _, h.ports, ?_⟩
    rw [← h.logLevel, ← h.dns, ← h.dnsStripAaaa, ← h.interface, ← h.daemon, ← h.localTraffic,
      ← h.proxyUser, ← h.gateway, ← h.sni, ← h.allowQuic, ← h.install, ← h.uninstall, ← h.start,
      ← h.stop, ← h.setupFirewall, ← h.teardownFirewall]

/-- `required_unless_present_any` of the upstream proxy. -/
def hasRequired (c : Config) : Bool :=
  c.upstreamProxy.isSome || c.uninstall || c.start || c.stop || c.teardownFirewall

def parse (env : Env) (platform : Platform) (args : List String) : Option Config := do
  let tokens ← tokenize spec args
  if (tokens.map Token.id).Nodup then
    (ofValues env platform (valueOf tokens) (present tokens)).filter hasRequired
  else none

theorem parse_eq_some_iff {env : Env} {platform : Platform} {args : List String} {c : Config} :
    parse env platform args = some c ↔ ∃ tokens, tokenize spec args = some tokens ∧
      (tokens.map Token.id).Nodup ∧ Given env platform (valueOf tokens) (present tokens) c ∧
        c.hasRequired = true := by
  rw [parse, Option.bind_eq_bind, Option.bind_eq_some_iff]
  apply exists_congr
  intro tokens
  by_cases hnodup : (tokens.map Token.id).Nodup
  · simp [hnodup, Option.filter_eq_some_iff, ofValues_eq_some_iff]
  · simp [hnodup]

def isUsableIpv6 (ip : Ipv6Addr) : Bool :=
  ip != .ofSegments [0, 0, 0, 0, 0, 0, 0, 1] && ip.segments.headD 0 &&& 0xfe80 != 0xfe80

/-- The first address of the interface, and an IPv4 address rather than an IPv6 address. -/
def getInterfaceIp (env : Env) (name : String) : Option IpAddr :=
  if 0 ∈ strBytes name then none
  else
    match env.ifaddrs with
    | none => none
    | some entries =>
      let addrs := (entries.filter (fun e => e.1 = strBytes name)).filterMap (fun e => e.2)
      let v4 := addrs.find? (fun ip => match ip with
        | .v4 _ => true
        | .v6 _ => false)
      let v6 := addrs.find? (fun ip => match ip with
        | .v4 _ => false
        | .v6 ip => isUsableIpv6 ip)
      v4 <|> v6

def resolveDnsListen (env : Env) (c : Config) : Option SocketAddr :=
  match c.dnsListen with
  | some addr => some addr
  | none =>
    if c.dns then
      some (.new ((getInterfaceIp env c.interface).getD (.v4 .unspecified)) 53)
    else none

/-- The upstream is SOCKS5 and QUIC is not to pass. -/
def proxyUdpEnabled (c : Config) : Bool :=
  !c.allowQuic && c.upstreamProxy.any UpstreamProxy.isSocks5

end Config
end TransProxy
