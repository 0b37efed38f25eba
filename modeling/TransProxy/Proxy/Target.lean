import TransProxy.Config.Parse
import TransProxy.Dns.TableRefinement
import TransProxy.Proxy.OrigDest
import TransProxy.Tunnel.Socks5

/-!
# What a connection asks the upstream proxy for

`handle_connection` up to the tunnel: the destination is recovered, a hostname is looked
for in the TLS ClientHello and in the table, and the upstream proxy is asked for it.
-/
namespace TransProxy.Proxy
open Library Net Tunnel Dns

/-- How `extract_sni` ended within its time, or that it did not. -/
inductive SniOutcome where
  | found (hostname : String)
  | absent
  | failed (error : String)
  | timedOut

def SniOutcome.hostname : SniOutcome → Option String
  | .found h => some h
  | .absent => none
  | .failed _ => none
  | .timedOut => none

/-- The ClientHello is looked at for port 443 only. -/
def sniHostname (config : Config) (origDest : SocketAddr) (sni : SniOutcome) : Option String :=
  if config.sni && origDest.port == 443 then sni.hostname else none

/-- `sni_hostname.or_else(|| dns_table.lookup(&orig_ip))`. -/
def hostnameFor (config : Config) (origDest : SocketAddr) (sni : SniOutcome) (table : DnsTable)
    (now : Instant) : Option String :=
  match sniHostname config origDest sni with
  | some h => some h
  | none => table.lookup origDest.ip now

structure TunnelCall where
  proxy : UpstreamProxy
  dest : SocketAddr
  hostname : Option String

/-- A call, or the error that the connection ends with. -/
def handleConnection (config : Config) (kernel : Kernel) (localAddr : SocketAddr) (sni : SniOutcome)
    (table : DnsTable) (now : Instant) : Except String TunnelCall := do
  let origDest ← getOriginalDest kernel localAddr config.listenAddr
  let hostname := hostnameFor config origDest sni table now
  match config.upstreamProxy with
  | none => .error "upstream proxy is required when proxy runs"
  | some proxy => .ok { proxy, dest := origDest, hostname }

def TunnelCall.handshake (call : TunnelCall) : Handshake Bytes :=
  connectViaProxy call.proxy call.dest call.hostname

/-- A connection to the listener itself is refused exactly if the listen address is one that
can be reported for it; otherwise a tunnel to the address that was dialled is opened. -/
theorem refuses_loop_iff {config : Config} {kernel : Kernel} {flowinfo scopeId : UInt32}
    {localAddr : SocketAddr} (haccepts : Accepts config.listenAddr localAddr)
    (hreports : kernel.ReportsLocal flowinfo scopeId localAddr) :
    ((∃ e, getOriginalDest kernel localAddr config.listenAddr = .error e) ↔
      kernel.CanReport flowinfo scopeId config.listenAddr) ∧
    ∀ sni table now proxy, config.upstreamProxy = some proxy →
      ((∀ call, handleConnection config kernel localAddr sni table now ≠ .ok call) ↔
        kernel.CanReport flowinfo scopeId config.listenAddr) := by
  have hdest := getOriginalDest_of_reportsLocal hreports config.listenAddr
  rw [checkLoop] at hdest
  by_cases hcan : kernel.CanReport flowinfo scopeId config.listenAddr
  · rw [if_pos ((reported_eq_iff haccepts hreports).mpr hcan)] at hdest
    refine ⟨iff_of_true ⟨_, hdest⟩ hcan, ?_⟩
    intro sni table now proxy hproxy
    refine iff_of_true ?_ hcan
    intro call
    simp [handleConnection, hdest, bind, Except.bind]
  · rw [if_neg fun h => hcan ((reported_eq_iff haccepts hreports).mp h)] at hdest
    refine ⟨iff_of_false (by simp [hdest]) hcan, ?_⟩
    intro sni table now proxy hproxy
    refine iff_of_false ?_ hcan
    intro hnone
    apply hnone ⟨proxy, kernel.reported flowinfo scopeId localAddr,
      hostnameFor config (kernel.reported flowinfo scopeId localAddr) sni table now⟩
    simp [handleConnection, hdest, hproxy, bind, Except.bind]

/-- The options of a command line that gives the listen address and an upstream proxy. -/
def sampleConfig (listenAddr : SocketAddr) (proxy : UpstreamProxy) : Config :=
  { listenAddr, upstreamProxy := some proxy, logLevel := "info", dns := false, dnsListen := none
    dnsUpstream := .https "https://cloudflare-dns.com/dns-query", dnsStripAaaa := false
    interface := "eth0", daemon := false, pidFile := "/var/run/trans_proxy.pid", logFile := none
    localTraffic := false, proxyUser := "trans_proxy", fwmark := 1, gateway := false, sni := true
    ports := none, allowQuic := false, install := false, uninstall := false, start := false
    stop := false, setupFirewall := false, teardownFirewall := false }

def sampleProxy : UpstreamProxy :=
  { protocol := .httpConnect, addr := .v4 (.new 192 0 2 1) 3128 }

/-- A Linux socket that was reached at an IPv4 address. -/
def sampleKernel (ip : Ipv4Addr) (port : UInt16) : Kernel :=
  .linux { originalDst := .ok (ip, port), originalDst6 := .error "Protocol not available" }

theorem refuses_loop_iff_sample :
    (∃ e, getOriginalDest (sampleKernel (.new 127 0 0 1) 8443) (.v4 (.new 127 0 0 1) 8443)
      (.v4 (.new 127 0 0 1) 8443) = .error e) ∧
    ∀ call, handleConnection (sampleConfig (.v4 (.new 127 0 0 1) 8443) sampleProxy)
      (sampleKernel (.new 127 0 0 1) 8443) (.v4 (.new 127 0 0 1) 8443) .absent ∅ 0 ≠ .ok call := by
  have haccepts : Accepts (sampleConfig (.v4 (.new 127 0 0 1) 8443) sampleProxy).listenAddr
      (.v4 (.new 127 0 0 1) 8443) :=
    ⟨.inl ⟨_, _, _, _, rfl, rfl⟩, fun _ => rfl, by decide, fun _ => rfl, by decide⟩
  have hcan : (sampleKernel (.new 127 0 0 1) 8443).CanReport 0 0 (.v4 (.new 127 0 0 1) 8443) :=
    ⟨by decide, by decide, trivial⟩
  have hreports : (sampleKernel (.new 127 0 0 1) 8443).ReportsLocal 0 0
      (.v4 (.new 127 0 0 1) 8443) := rfl
  obtain ⟨hdest, hcall⟩ := refuses_loop_iff haccepts hreports
  exact ⟨hdest.mpr hcan, (hcall .absent ∅ 0 sampleProxy rfl).mpr hcan⟩

/-- With the default listen address, a client that dials an address of the gateway at the
listen port has a tunnel opened for it that leads back to the listener. -/
theorem loop_not_refused :
    Accepts (.v4 .unspecified 8443) (.v4 (.new 192 168 1 1) 8443) ∧
    (sampleKernel (.new 192 168 1 1) 8443).ReportsLocal 0 0 (.v4 (.new 192 168 1 1) 8443) ∧
    getOriginalDest (sampleKernel (.new 192 168 1 1) 8443) (.v4 (.new 192 168 1 1) 8443)
      (.v4 .unspecified 8443) = .ok (.v4 (.new 192 168 1 1) 8443) ∧
    handleConnection (sampleConfig (.v4 .unspecified 8443) sampleProxy)
      (sampleKernel (.new 192 168 1 1) 8443) (.v4 (.new 192 168 1 1) 8443) .absent ∅ 0 =
        .ok ⟨sampleProxy, .v4 (.new 192 168 1 1) 8443, none⟩ := by
  refine ⟨⟨.inl ⟨_, _, _, _, rfl, rfl⟩, ?_, by decide, fun _ => rfl, by decide⟩, rfl, rfl, rfl⟩
  intro hspecific
  exact absurd hspecific (by decide)

end TransProxy.Proxy
