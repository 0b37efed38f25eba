import TransProxy.Proxy.Target
import TransProxy.Tunnel.Socks5Safety

/-!
# The host that the upstream proxy is asked for

The chain of names that the README describes, against the request that a connection
sends: they differ when a hostname in the ClientHello cannot be put into a request
and the table has one that can.
-/
namespace TransProxy.Proxy
open Library Net Tunnel Dns Dialogue

def requestOp : ProxyProtocol → Op
  | .httpConnect => .httpRequest
  | .socks5 _ => .connectRequest

/-- `request` is sent for a tunnel in some run of the handshake. -/
def TunnelCall.Sends (call : TunnelCall) (request : Bytes) : Prop :=
  ∃ net stream, .sent (requestOp call.proxy.protocol) request ∈
    (call.handshake.run ioError net 0 stream).trace

def TunnelCall.request (call : TunnelCall) : Bytes :=
  match call.proxy.protocol with
  | .httpConnect => strBytes (httpConnectRequest call.dest call.hostname)
  | .socks5 _ => socks5ConnectRequest call.dest call.hostname

/-- Nothing is sent while the response is read. -/
theorem triple_readResponse {P : List (Event Op) → Event Op → Prop}
    (hgot : ∀ past op data, P past (.got op data)) (buf : Bytes) (past : List (Event Op)) :
    Triple P past (readResponse buf) (fun _ _ => True) := by
  induction buf using readResponse.induct generalizing past with
  | case1 buf hfull =>
    rw [readResponse, if_pos hfull]
    exact triple_fail _
  | case2 buf hroom ih =>
    rw [readResponse, if_neg hroom]
    apply triple_recv (hgot _ _)
    intro data _
    split_ifs with hend
    · exact triple_fail _
    · cases hfind : findHeaderEnd (buf ++ data) with
      | none => exact ih data hend _
      | some pos =>
        dsimp only
        cases acceptHeader (buf ++ data) pos with
        | error e => exact triple_fail _
        | ok leftover => exact triple_done trivial

theorem triple_handshakeHttpConnect (dest : SocketAddr) (hostname : Option String) :
    Triple (fun _ event => ∀ data, event = .sent .httpRequest data →
        data = strBytes (httpConnectRequest dest hostname)) []
      (handshakeHttpConnect dest hostname) (fun _ _ => True) := by
  apply triple_send
  · intro data heq
    cases heq
    rfl
  · exact triple_readResponse (by simp) [] _

/-- A proxy that is there to answer is sent the one request of the call. -/
theorem TunnelCall.sends_iff (call : TunnelCall) (request : Bytes) :
    call.Sends request ↔ request = call.request := by
  obtain ⟨⟨protocol, addr⟩, dest, hostname⟩ := call
  cases protocol with
  | httpConnect =>
    constructor
    · rintro ⟨net, stream, hmem⟩
      obtain ⟨before, after, htrace⟩ := List.append_of_mem hmem
      have hplays := plays_run ioError net (handshakeHttpConnect dest hostname) 0 stream
      have hguarded := (triple_handshakeHttpConnect dest hostname _ _ hplays).1
      exact guarded_iff.mp hguarded before _ after htrace request rfl
    · rintro rfl
      exact ⟨.clean fun _ => 0, [], List.mem_cons_self⟩
  | socks5 auth =>
    constructor
    · rintro ⟨net, stream, hmem⟩
      obtain ⟨before, after, htrace⟩ := List.append_of_mem hmem
      exact (((socks5_sound auth addr net stream).1 dest hostname).request before _ after htrace).1
    · rintro rfl
      -- a server that wants no authentication and then says nothing
      refine ⟨.clean fun _ => 0, [0x05, 0x00], ?_⟩
      rw [TunnelCall.handshake, connectViaProxy_socks5]
      exact List.mem_cons_of_mem _ (List.mem_cons_of_mem _ List.mem_cons_self)

/-- The host of a request: a name, or the address of the destination. -/
inductive RequestHost where
  | name (hostname : String)
  | address
deriving DecidableEq

/-- The name of the table for an address, until it expires. -/
def unexpiredName (table : DnsTable) (ip : IpAddr) (now : Instant) : Option String :=
  ((AList.lookup ip table).filter (fun e => decide (now < e.2))).map Prod.fst

/-- The hostname of the ClientHello if it is usable, else that of the table, else the address. -/
def intendedHost (sni : Option String) (table : DnsTable) (ip : IpAddr) (now : Instant) :
    RequestHost :=
  match sni.filter isSafeProxyHostname with
  | some h => .name h
  | none =>
    match (unexpiredName table ip now).filter isSafeProxyHostname with
    | some d => .name d
    | none => .address

namespace RequestHost

/-- As it reads in front of a port. -/
def text (dest : SocketAddr) : RequestHost → String
  | .name h => h
  | .address =>
    match dest.ip with
    | .v4 ip => ip.display
    | .v6 ip => "[" ++ ip.display ++ "]"

def socks5 (dest : SocketAddr) : RequestHost → Bytes
  | .name h => [0x03, UInt8.ofNat (strBytes h).length] ++ strBytes h
  | .address =>
    match dest.ip with
    | .v4 ip => 0x01 :: ip.octets.toList
    | .v6 ip => 0x04 :: ip.octets.toList

def request (dest : SocketAddr) (host : RequestHost) : ProxyProtocol → Bytes
  | .httpConnect =>
    let target := host.text dest ++ ":" ++ toString dest.port.toNat
    strBytes ("CONNECT " ++ target ++ " HTTP/1.1\r\nHost: " ++ target ++ "\r\n\r\n")
  | .socks5 _ => [0x05, 0x01, 0x00] ++ host.socks5 dest ++ u16ToBeBytes dest.port

end RequestHost

/-- The host that the code names. -/
def namedHost (hostname : Option String) : RequestHost :=
  match hostname.filter isSafeProxyHostname with
  | some h => .name h
  | none => .address

theorem TunnelCall.request_eq (call : TunnelCall) :
    call.request = (namedHost call.hostname).request call.dest call.proxy.protocol := by
  obtain ⟨⟨protocol, addr⟩, dest, hostname⟩ := call
  cases protocol with
  | httpConnect =>
    simp only [TunnelCall.request, RequestHost.request, httpConnectRequest_eq, proxyRequestHost,
      usableProxyHostname, namedHost]
    cases hostname.filter isSafeProxyHostname with
    | some h => simp [RequestHost.text, String.append_assoc]
    | none =>
      simp only [RequestHost.text]
      cases dest.ip <;> simp [IpAddr.display, String.append_assoc]
  | socks5 auth =>
    simp only [TunnelCall.request, RequestHost.request, socks5ConnectRequest, targetAddress,
      usableProxyHostname, namedHost]
    cases hostname.filter isSafeProxyHostname with
    | some h => simp [RequestHost.socks5]
    | none =>
      simp only [RequestHost.socks5]
      cases dest.ip <;> simp

/-- Requests over HTTP name the same host when its text is the same. -/
theorem RequestHost.request_httpConnect_inj {dest : SocketAddr} {host host' : RequestHost} :
    host.request dest .httpConnect = host'.request dest .httpConnect ↔
      host.text dest = host'.text dest := by
  constructor
  · intro h
    simp only [request, strBytes_append, List.append_assoc] at h
    have hrest := List.append_cancel_left h
    have hlen := congrArg List.length hrest
    simp only [List.length_append] at hlen
    have htext := (List.append_inj hrest (by omega)).1
    exact Option.some.inj ((fromUtf8_eq_some_iff.mpr htext).symm.trans
      (fromUtf8_eq_some_iff.mpr rfl))
  · intro h
    simp only [request, h]

theorem RequestHost.request_socks5_ne {dest : SocketAddr} {auth : ProxyAuth} (d : String) :
    (address : RequestHost).request dest (.socks5 auth) ≠ (name d).request dest (.socks5 auth) := by
  simp only [request, socks5]
  cases dest.ip <;> simp

/-- Where the ClientHello has a hostname that is not usable, the table is not asked. -/
theorem namedHost_hostnameFor {config : Config} {dest : SocketAddr} {sni : SniOutcome}
    {h : String} (hsni : sniHostname config dest sni = some h)
    (hunusable : isSafeProxyHostname h = false) (table : DnsTable) (now : Instant) :
    namedHost (hostnameFor config dest sni table now) = .address := by
  simp [hostnameFor, hsni, namedHost, Option.filter, hunusable]

/-- Otherwise the host named is the intended one. -/
theorem namedHost_eq_intendedHost {config : Config} {dest : SocketAddr} {sni : SniOutcome}
    (hsafe : ∀ h, sniHostname config dest sni = some h → isSafeProxyHostname h = true)
    (table : DnsTable) (now : Instant) :
    namedHost (hostnameFor config dest sni table now) =
      intendedHost (sniHostname config dest sni) table dest.ip now := by
  cases hsni : sniHostname config dest sni with
  | none =>
    simp [hostnameFor, hsni, namedHost, intendedHost, DnsTable.lookup_eq, unexpiredName]
  | some h => simp [hostnameFor, hsni, namedHost, intendedHost, Option.filter, hsafe h hsni]

/-- The request names the intended host exactly when no usable name of the table hides behind
a hostname of the ClientHello that is not usable, or when that name reads like the address. -/
theorem names_intended_iff {config : Config} {kernel : Kernel} {localAddr dest : SocketAddr}
    {proxy : UpstreamProxy} (hdest : getOriginalDest kernel localAddr config.listenAddr = .ok dest)
    (hproxy : config.upstreamProxy = some proxy) (sni : SniOutcome) (table : DnsTable)
    (now : Instant) :
    ∃ call, handleConnection config kernel localAddr sni table now = .ok call ∧
      ((∀ request, call.Sends request → request =
        (intendedHost (sniHostname config dest sni) table dest.ip now).request dest proxy.protocol) ↔
      ∀ h d, sniHostname config dest sni = some h → isSafeProxyHostname h = false →
        unexpiredName table dest.ip now = some d → isSafeProxyHostname d = true →
          proxy.protocol = .httpConnect ∧ d = RequestHost.address.text dest) := by
  refine ⟨⟨proxy, dest, hostnameFor config dest sni table now⟩, ?_, ?_⟩
  · simp only [handleConnection, hdest, hproxy]
    rfl
  simp only [TunnelCall.sends_iff, forall_eq, TunnelCall.request_eq]
  by_cases hsafe : ∀ h, sniHostname config dest sni = some h → isSafeProxyHostname h = true
  · rw [namedHost_eq_intendedHost hsafe]
    refine iff_of_true rfl ?_
    intro h d hsni hunusable
    rw [hsafe h hsni] at hunusable
    cases hunusable
  obtain ⟨h, hsni, hunusable⟩ : ∃ h, sniHostname config dest sni = some h ∧
      isSafeProxyHostname h = false := by simpa using hsafe
  rw [namedHost_hostnameFor hsni hunusable]
  have hskip : (some h).filter isSafeProxyHostname = none := by simp [Option.filter, hunusable]
  rw [intendedHost, hsni, hskip]
  dsimp only
  cases hname : (unexpiredName table dest.ip now).filter isSafeProxyHostname with
  | none =>
    refine iff_of_true rfl ?_
    intro _ d _ _ hd hsafe
    rw [hd, Option.filter_some, if_pos hsafe] at hname
    cases hname
  | some d =>
    obtain ⟨hd, hsafe⟩ := Option.filter_eq_some_iff.mp hname
    cases proxy with
    | mk protocol addr =>
    cases protocol with
    | httpConnect =>
      rw [RequestHost.request_httpConnect_inj]
      constructor
      · rintro heq _ d' _ _ hd' _
        obtain rfl := Option.some.inj (hd.symm.trans hd')
        exact ⟨rfl, heq.symm⟩
      · intro hall
        exact (hall h d rfl hunusable hd hsafe).2.symm
    | socks5 auth =>
      refine iff_of_false (RequestHost.request_socks5_ne d) ?_
      intro hall
      cases (hall h d rfl hunusable hd hsafe).1

def sampleDest : SocketAddr := .v4 (.new 198 51 100 7) 443

def sampleRedirected : Kernel := sampleKernel (.new 198 51 100 7) 443

/-- The table after an answer with that address. -/
def sampleTable : DnsTable := AList.insert sampleDest.ip ("a", fromSecs 300) ∅

theorem names_intended_iff_sample :
    ∃ call, handleConnection (sampleConfig (.v4 .unspecified 8443) sampleProxy) sampleRedirected
        (.v4 (.new 127 0 0 1) 8443) (.found "b") sampleTable 0 = .ok call ∧
      ∀ request, call.Sends request →
        request = (RequestHost.name "b").request sampleDest .httpConnect := by
  obtain ⟨call, hcall, hiff⟩ := names_intended_iff
    (show getOriginalDest sampleRedirected (.v4 (.new 127 0 0 1) 8443)
      (sampleConfig (.v4 .unspecified 8443) sampleProxy).listenAddr = .ok sampleDest from rfl)
    (show _ = some sampleProxy from rfl) (.found "b") sampleTable 0
  refine ⟨call, hcall, hiff.mpr ?_⟩
  intro h d hsni hunusable
  obtain rfl : "b" = h := Option.some.inj hsni
  have hsafe : isSafeProxyHostname "b" = true := by decide
  rw [hsafe] at hunusable
  cases hunusable

/-- An empty hostname in the ClientHello keeps the name of the table out of the request. -/
theorem empty_hides_name :
    intendedHost (sniHostname (sampleConfig (.v4 .unspecified 8443) sampleProxy) sampleDest
      (.found "")) sampleTable sampleDest.ip 0 = .name "a" ∧
    ∃ call, handleConnection (sampleConfig (.v4 .unspecified 8443) sampleProxy) sampleRedirected
        (.v4 (.new 127 0 0 1) 8443) (.found "") sampleTable 0 = .ok call ∧
      ∃ request, call.Sends request ∧
        request = RequestHost.address.request sampleDest .httpConnect ∧
        request ≠ (RequestHost.name "a").request sampleDest .httpConnect := by
  refine ⟨by decide, ⟨sampleProxy, sampleDest, some ""⟩, rfl, _,
    (TunnelCall.sends_iff _ _).mpr rfl, TunnelCall.request_eq _, ?_⟩
  rw [TunnelCall.request_eq]
  intro heq
  have htext := RequestHost.request_httpConnect_inj.mp heq
  exact absurd htext (by decide)

end TransProxy.Proxy
