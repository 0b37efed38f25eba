import TransProxy.Config.Credentials
import TransProxy.Proxy.Connection
import TransProxy.Proxy.Target
import TransProxy.Tunnel.Encoders
import TransProxy.Tunnel.Socks5Safety

/-!
# A tunnel from end to end

What the upstream proxy makes of everything that it is sent, and what the client gets to see of
everything that the upstream proxy says.
-/
namespace TransProxy.Proxy
open Library Net Tunnel Config
open Dialogue (received sentBytes sentBytes_append received_append)

/-- A request as a proxy reads it, and what comes behind it. -/
structure Opened where
  credentials : Option (String × String)
  host : String
  port : UInt16
  carried : Bytes
deriving DecidableEq

def readHttp (input : Bytes) : Option Opened := do
  let (head, carried) ← RequestHead.parse input
  if head.method ≠ strBytes "CONNECT" then none
  else
    let authority ← fromUtf8 head.target
    let (host, port) ← readAuthority authority
    some { credentials := none, host, port, carried }

def readGreeting : Bytes → Option (Bytes × Bytes)
  | 0x05 :: input => readField input
  | _ => none

/-- The credentials, for the method that wants them. -/
def readCredentials (method : UInt8) (input : Bytes) : Option (Option (String × String) × Bytes) :=
  if method = 0x02 then
    (readAuthRequest input).map fun (username, password, rest) => (some (username, password), rest)
  else some (none, input)

def readSocks5 (method : UInt8) (input : Bytes) : Option Opened := do
  let (methods, input) ← readGreeting input
  if method ∉ methods then none
  else
    let (credentials, input) ← readCredentials method input
    let (target, port, carried) ← readConnect input
    some { credentials, host := target.text, port, carried }

/-- What a proxy that says `reply` reads. With SOCKS5 the second byte is the method it selects. -/
def readAsServer (protocol : ProxyProtocol) (reply input : Bytes) : Option Opened :=
  match protocol with
  | .httpConnect => readHttp input
  | .socks5 _ => readSocks5 (reply.getD 1 0) input

/-- The credentials that are given to a proxy that says `reply`. -/
def givenCredentials (protocol : ProxyProtocol) (reply : Bytes) : Option (String × String) :=
  match protocol with
  | .socks5 (.usernamePassword username password) =>
    if reply.getD 1 0 = 0x02 then some (username, password) else none
  | _ => none

/-- All that a proxy says to open a tunnel. -/
inductive Reply : ProxyProtocol → Bytes → Prop
  | http {header : Bytes} (hfirst : SplitsAtFirst (header ++ headerTerminator) header [])
      (hlen : header.length + 4 ≤ maxResponseSize) (hstatus : StatusAccepted header) :
      Reply .httpConnect (header ++ headerTerminator)
  | noAuth {auth : ProxyAuth} {rsv atyp : UInt8} {bound : Bytes} (hbound : BoundBytes atyp bound) :
      Reply (.socks5 auth) ([0x05, 0x00] ++ ([0x05, 0x00, rsv, atyp] ++ bound))
  | password {username password : String} {version rsv atyp : UInt8} {bound : Bytes}
      (hbound : BoundBytes atyp bound) :
      Reply (.socks5 (.usernamePassword username password))
        ([0x05, 0x02] ++ ([version, 0x00] ++ ([0x05, 0x00, rsv, atyp] ++ bound)))

/-- Credentials that can be sent, as those from the command line. -/
def Sendable : ProxyProtocol → Prop
  | .socks5 (.usernamePassword username password) =>
    CredentialLength username ∧ CredentialLength password
  | _ => True

/-- What the command line takes for an upstream proxy has such credentials. -/
theorem sendable_of_fromStr {env : Env} {s : String} {proxy : UpstreamProxy}
    (h : UpstreamProxy.fromStr env s = .ok proxy) : Sendable proxy.protocol := by
  unfold UpstreamProxy.fromStr at h
  cases hscheme : stripPrefix "socks5://" s with
  | none =>
    simp only [hscheme] at h
    obtain ⟨_, _, hproxy⟩ := exists_of_bind_eq_ok h
    obtain rfl := Except.ok.inj hproxy
    trivial
  | some rest =>
    simp only [hscheme] at h
    obtain ⟨⟨auth, addrStr⟩, huserinfo, hrest⟩ := exists_of_bind_eq_ok h
    obtain ⟨_, _, hproxy⟩ := exists_of_bind_eq_ok hrest
    obtain rfl := Except.ok.inj hproxy
    cases auth with
    | none => trivial
    | usernamePassword username password => exact credentialLength_of_parseUserinfo huserinfo

theorem splitsAtFirst_append {header : Bytes} (payload : Bytes) :
    SplitsAtFirst (header ++ headerTerminator ++ payload) header payload ↔
      SplitsAtFirst (header ++ headerTerminator) header [] := by
  have hlen : (header ++ headerTerminator).length = header.length + 4 := by
    simp [headerTerminator]
  have hfirst : ∀ j < header.length,
      ((header ++ headerTerminator ++ payload).drop j).take 4 =
        ((header ++ headerTerminator).drop j).take 4 := by
    intro j hj
    rw [List.drop_append_of_le_length (by omega), List.take_append_of_le_length]
    rw [List.length_drop]
    omega
  constructor
  · rintro ⟨-, h⟩
    refine ⟨(List.append_nil _).symm, fun j hj => ?_⟩
    rw [← hfirst j hj]
    exact h j hj
  · rintro ⟨-, h⟩
    refine ⟨rfl, fun j hj => ?_⟩
    rw [hfirst j hj]
    exact h j hj

theorem head_of_splitsAtFirst {stream header payload : Bytes}
    (h : SplitsAtFirst stream header payload) :
    SplitsAtFirst (header ++ headerTerminator) header [] :=
  (splitsAtFirst_append payload).mp (h.1 ▸ h)

theorem boundBytes_append {atyp : UInt8} {bound bound' rest rest' : Bytes}
    (h : BoundBytes atyp bound) (h' : BoundBytes atyp bound')
    (heq : bound ++ rest = bound' ++ rest') : rest = rest' := by
  have hlen : bound.length = bound'.length := by
    cases h with
    | ipv4 h =>
      cases h' with
      | ipv4 h' => omega
    | domain h =>
      cases h' with
      | domain h' =>
        have hfirst := (List.cons.inj heq).1
        subst hfirst
        simp only [List.length_cons]
        omega
    | ipv6 h =>
      cases h' with
      | ipv6 h' => omega
  exact (List.append_inj heq hlen).2

/-- A stream opens with one reply. -/
theorem Reply.unique {protocol : ProxyProtocol} {reply reply' payload payload' : Bytes}
    (h : Reply protocol reply) (h' : Reply protocol reply')
    (heq : reply ++ payload = reply' ++ payload') : payload = payload' := by
  cases h with
  | http hfirst _ _ =>
    cases h' with
    | http hfirst' _ _ =>
      have hsplit := (splitsAtFirst_append payload).mpr hfirst
      have hsplit' := (splitsAtFirst_append payload').mpr hfirst'
      rw [heq] at hsplit
      exact hsplit.unique hsplit'
  | noAuth hbound =>
    cases h' with
    | noAuth hbound' =>
      simp only [List.cons_append, List.nil_append, List.cons.injEq, true_and] at heq
      obtain ⟨-, rfl, heq⟩ := heq
      exact boundBytes_append hbound hbound' heq
    | password hbound' => simp at heq
  | password hbound =>
    cases h' with
    | noAuth hbound' => simp at heq
    | password hbound' =>
      simp only [List.cons_append, List.nil_append, List.cons.injEq, true_and] at heq
      obtain ⟨-, -, rfl, heq⟩ := heq
      exact boundBytes_append hbound hbound' heq

section Handshakes
variable {dest : SocketAddr} {hostname : Option String} {target : Tunnel.Endpoint}

theorem readHttp_request (htarget : IsTarget dest hostname target)
    (htext : proxyRequestHost dest hostname = target.text) (carried : Bytes) :
    readHttp (strBytes (httpConnectRequest dest hostname) ++ carried) =
      some { credentials := none, host := target.text, port := dest.port, carried } := by
  have hutf8 : fromUtf8 (strBytes (target.authority dest.port)) =
      some (target.authority dest.port) := fromUtf8_eq_some_iff.mpr rfl
  have hparse := parse_connectHead (token_authority htarget dest.port)
  rw [readHttp, strBytes_httpConnectRequest htext, RequestHead.parse_of_append hparse]
  simp [connectHead, hutf8, readAuthority_authority]

theorem readConnect_request (htarget : IsTarget dest hostname target)
    (haddress : targetAddress dest hostname = target.address ++ u16ToBeBytes dest.port)
    (carried : Bytes) :
    readConnect (socks5ConnectRequest dest hostname ++ carried) =
      some (target, dest.port, carried) := by
  rw [socks5ConnectRequest, haddress, List.append_assoc, List.append_assoc]
  exact readTarget_append htarget dest.port carried

theorem readGreeting_greeting (auth : ProxyAuth) (rest : Bytes) :
    readGreeting (socks5Greeting auth ++ rest) = some (offeredMethods auth, rest) := by
  cases auth <;> simp [socks5Greeting, offeredMethods, readGreeting, readField]

theorem credentialLength_of_ok {label value : String}
    (h : validateSocks5AuthField label value = .ok ()) : CredentialLength value := by
  rw [validateSocks5AuthField, maxSocks5FieldLen] at h
  split_ifs at h with hempty hlong
  exact ⟨by omega, by omega⟩

theorem credentialLength_of_build {username password : String} {request : Bytes}
    (h : buildSocks5AuthRequest username password = .ok request) :
    CredentialLength username ∧ CredentialLength password := by
  rw [buildSocks5AuthRequest] at h
  cases huser : validateSocks5AuthField "username" username with
  | error e => simp [huser, bind, Except.bind] at h
  | ok _ =>
    cases hpass : validateSocks5AuthField "password" password with
    | error e => simp [huser, hpass, bind, Except.bind] at h
    | ok _ => exact ⟨credentialLength_of_ok huser, credentialLength_of_ok hpass⟩

theorem readAuthRequest_of_append {input rest : Bytes} {username password : String}
    (h : readAuthRequest input = some (username, password, rest)) (more : Bytes) :
    readAuthRequest (input ++ more) = some (username, password, rest ++ more) := by
  unfold readAuthRequest at h
  split at h
  · obtain ⟨⟨user, input'⟩, huser, h⟩ := Option.bind_eq_some_iff.mp h
    obtain ⟨⟨pass, rest'⟩, hpass, h⟩ := Option.bind_eq_some_iff.mp h
    obtain ⟨username', huser', h⟩ := Option.bind_eq_some_iff.mp h
    obtain ⟨password', hpass', h⟩ := Option.bind_eq_some_iff.mp h
    obtain ⟨rfl, rfl, rfl⟩ := by simpa using h
    simp [readAuthRequest, readField_of_append huser, readField_of_append hpass, huser', hpass']
  · cases h

theorem readCredentials_auth {username password : String} {request : Bytes}
    (hrequest : buildSocks5AuthRequest username password = .ok request) (rest : Bytes) :
    readCredentials 0x02 (request ++ rest) = some (some (username, password), rest) := by
  obtain ⟨huser, hpass⟩ := credentialLength_of_build hrequest
  rw [buildSocks5AuthRequest_ok huser hpass] at hrequest
  obtain rfl := Except.ok.inj hrequest
  rw [readCredentials, if_pos rfl, readAuthRequest_of_append (readAuthRequest_build huser hpass)]
  rfl

/-- Greeting, authentication if the method wants one, and the request. -/
theorem readSocks5_messages {auth : ProxyAuth} {method : UInt8} {authRequest : Bytes}
    {credentials : Option (String × String)} (htarget : IsTarget dest hostname target)
    (haddress : targetAddress dest hostname = target.address ++ u16ToBeBytes dest.port)
    (hoffered : method ∈ offeredMethods auth)
    (hauth : ∀ rest, readCredentials method (authRequest ++ rest) = some (credentials, rest))
    (carried : Bytes) :
    readSocks5 method (socks5Greeting auth ++ (authRequest ++
      (socks5ConnectRequest dest hostname ++ carried))) =
        some { credentials, host := target.text, port := dest.port, carried } := by
  rw [readSocks5, readGreeting_greeting]
  simp [hoffered, hauth, readConnect_request htarget haddress]

/-- The answers of a trace are a reply, up to what was read beyond it, and the proxy that gives it
reads a request for the target from what it is sent. -/
structure Opens (protocol : ProxyProtocol) (dest : SocketAddr) (target : Tunnel.Endpoint)
    (trace : List (Event Op)) (leftover reply : Bytes) : Prop where
  opened : Reply protocol reply
  received : received trace = reply ++ leftover
  request : ∀ carried, readAsServer protocol reply (sentBytes trace ++ carried) =
    some { credentials := givenCredentials protocol reply, host := target.text
           port := dest.port, carried }

theorem opens_of_succeeds {auth : ProxyAuth} {trace : List (Event Op)}
    (htarget : IsTarget dest hostname target)
    (haddress : targetAddress dest hostname = target.address ++ u16ToBeBytes dest.port)
    (h : Succeeds auth connectCommand (socks5ConnectRequest dest hostname) trace) :
    ∃ reply, Opens (.socks5 auth) dest target trace [] reply := by
  obtain ⟨negotiation, rsv, atyp, bound, hnegotiated, hbound, rfl⟩ := h
  have hbytes := hbound.received
  have hsent : sentBytes bound = [] := by cases hbound <;> rfl
  cases hnegotiated with
  | mk hoffered hauth =>
    cases hauth with
    | noAuth =>
      have hread := @readSocks5_messages dest hostname target auth 0x00 [] none htarget haddress
        hoffered fun _ => rfl
      refine ⟨[0x05, 0x00] ++ ([0x05, 0x00, rsv, atyp] ++ received bound), .noAuth hbytes, ?_, ?_⟩
      · simp [received]
      · intro carried
        have hgiven : givenCredentials (.socks5 auth)
            ([0x05, 0x00] ++ ([0x05, 0x00, rsv, atyp] ++ received bound)) = none := by
          cases auth <;> rfl
        rw [hgiven, ← hread carried]
        simp [readAsServer, sentBytes, hsent]
    | @password username password request version hauth hrequest =>
      subst hauth
      have hread := readSocks5_messages htarget haddress hoffered (readCredentials_auth hrequest)
      refine ⟨[0x05, 0x02] ++ ([version, 0x00] ++ ([0x05, 0x00, rsv, atyp] ++ received bound)),
        .password hbytes, ?_, ?_⟩
      · simp [received]
      · intro carried
        have hgiven : givenCredentials (.socks5 (.usernamePassword username password))
            ([0x05, 0x02] ++ ([version, 0x00] ++ ([0x05, 0x00, rsv, atyp] ++ received bound))) =
              some (username, password) := rfl
        rw [hgiven, ← hread carried]
        simp [readAsServer, sentBytes, hsent]

/-- Nothing is sent while the response is read. -/
theorem sentBytes_readResponse (buf : Bytes) (past : List (Event Op)) :
    Dialogue.Triple (fun _ _ => True) past (readResponse buf)
      (fun trace _ => sentBytes trace = sentBytes past) := by
  induction buf using readResponse.induct generalizing past with
  | case1 buf hfull =>
    rw [readResponse, if_pos hfull]
    exact Dialogue.triple_fail _
  | case2 buf hroom ih =>
    rw [readResponse, if_neg hroom]
    apply Dialogue.triple_recv fun _ => trivial
    intro data _
    split_ifs with hend
    · exact Dialogue.triple_fail _
    · cases hfind : findHeaderEnd (buf ++ data) with
      | none =>
        apply Dialogue.triple_mono (ih data hend _)
        intro trace _ hsent
        simpa [sentBytes] using hsent
      | some pos =>
        dsimp only
        cases acceptHeader (buf ++ data) pos with
        | error e => exact Dialogue.triple_fail _
        | ok leftover => exact Dialogue.triple_done (by simp [sentBytes])

theorem sentBytes_handshakeHttpConnect {net : Dialogue.Network} {stream leftover : Bytes}
    (hok : ((handshakeHttpConnect dest hostname).run ioError net 0 stream).result = .ok leftover) :
    sentBytes ((handshakeHttpConnect dest hostname).run ioError net 0 stream).trace =
      strBytes (httpConnectRequest dest hostname) := by
  have htriple : Dialogue.Triple (fun _ _ => True) [] (handshakeHttpConnect dest hostname)
      (fun trace _ => sentBytes trace = strBytes (httpConnectRequest dest hostname)) := by
    apply Dialogue.triple_send trivial
    apply Dialogue.triple_mono (sentBytes_readResponse [] _)
    intro trace _ hsent
    simpa [sentBytes] using hsent
  have hplays := Dialogue.plays_run ioError net (handshakeHttpConnect dest hostname) 0 stream
  exact (htriple _ _ hplays).2 leftover hok

theorem opens_of_http {net : Dialogue.Network} {stream leftover : Bytes}
    (htarget : IsTarget dest hostname target)
    (htext : proxyRequestHost dest hostname = target.text)
    (hok : ((handshakeHttpConnect dest hostname).run ioError net 0 stream).result = .ok leftover) :
    ∃ reply, Opens .httpConnect dest target
      ((handshakeHttpConnect dest hostname).run ioError net 0 stream).trace leftover reply := by
  have hsent := sentBytes_handshakeHttpConnect hok
  have hreceived := Dialogue.received_run ioError net (handshakeHttpConnect dest hostname) 0 stream
  have hrest := run_handshakeHttpConnect dest hostname net.split stream
  rw [← Dialogue.run_eq_clean hok, restOf, hok] at hrest
  obtain ⟨header, hsplit, hlen, _, hstatus⟩ := connectOutcome_eq_ok_iff.mp hrest.symm
  refine ⟨header ++ headerTerminator, .http (head_of_splitsAtFirst hsplit) hlen hstatus, ?_, ?_⟩
  · apply List.append_cancel_right
    rw [hreceived, List.append_assoc]
    exact hsplit.1
  · intro carried
    rw [hsent, readAsServer, readHttp_request htarget htext]
    rfl

/-- SOCKS5 reads in known sizes, so that nothing is left over. -/
theorem leftover_eq_nil {auth : ProxyAuth} {addr : SocketAddr} {net : Dialogue.Network}
    {stream leftover : Bytes}
    (hok : ((connectViaProxy { protocol := .socks5 auth, addr } dest hostname).run
      ioError net 0 stream).result = .ok leftover) : leftover = [] := by
  have hplays := Dialogue.plays_run ioError net
    (connectViaProxy { protocol := .socks5 auth, addr } dest hostname) 0 stream
  rw [hok, connectViaProxy_socks5, ← Dialogue.bind_assoc] at hplays
  rcases Dialogue.plays_bind hplays with ⟨_, _, _, _, hdone, _⟩ | ⟨_, _, herror⟩
  · cases hdone
    rfl
  · cases herror

/-- Every handshake with a result has opened a tunnel, whatever the network did to it. -/
theorem opens_of_ok {proxy : UpstreamProxy} {net : Dialogue.Network} {stream leftover : Bytes}
    (hok : ((connectViaProxy proxy dest hostname).run ioError net 0 stream).result =
      .ok leftover) :
    ∃ target reply, IsTarget dest hostname target ∧ Opens proxy.protocol dest target
      ((connectViaProxy proxy dest hostname).run ioError net 0 stream).trace leftover reply := by
  obtain ⟨target, htarget, htext, haddress⟩ := exists_target dest hostname
  obtain ⟨protocol, addr⟩ := proxy
  cases protocol with
  | httpConnect =>
    obtain ⟨reply, hopens⟩ := opens_of_http htarget htext hok
    exact ⟨target, reply, htarget, hopens⟩
  | socks5 auth =>
    have hsucceeds := ((socks5_sound auth addr net stream).1 dest hostname).success leftover hok
    obtain rfl := leftover_eq_nil hok
    obtain ⟨reply, hopens⟩ := opens_of_succeeds htarget haddress hsucceeds
    exact ⟨target, reply, htarget, hopens⟩

section Complete
variable {split : ℕ → ℕ} {i : ℕ} {rest : Bytes}

theorem restOf_bound {atyp : UInt8} {bound : Bytes} (hbound : BoundBytes atyp bound) :
    restOf (((readSocks5BoundAddr atyp).bind fun _ => .done []).run ioError (.clean split) i
      (bound ++ rest)) = .ok rest := by
  unfold readSocks5BoundAddr
  cases hbound with
  | ipv4 h =>
    simp [Dialogue.readExact, Dialogue.bind, Dialogue.run, Dialogue.Network.clean, h, restOf,
      Dialogue.Outcome.cons, Except.map]
  | domain h =>
    simp [Dialogue.readExact, Dialogue.bind, Dialogue.run, Dialogue.Network.clean, h, restOf,
      Dialogue.Outcome.cons, Except.map, Dialogue.firstBytes]
  | ipv6 h =>
    simp [Dialogue.readExact, Dialogue.bind, Dialogue.run, Dialogue.Network.clean, h, restOf,
      Dialogue.Outcome.cons, Except.map]

theorem restOf_command {request : Bytes} {rsv atyp : UInt8} {bound : Bytes}
    (hbound : BoundBytes atyp bound) :
    restOf (((socks5Command connectCommand request).bind fun _ => .done []).run ioError
      (.clean split) i ([0x05, 0x00, rsv, atyp] ++ bound ++ rest)) = .ok rest := by
  have hrest := @restOf_bound split (i + 1 + 1) rest atyp bound hbound
  simpa [socks5Command, Dialogue.sendAll, Dialogue.readExact, Dialogue.bind, Dialogue.run,
    Dialogue.Network.clean, Dialogue.firstBytes, restOf, Dialogue.Outcome.cons] using hrest

theorem restOf_noAuth {auth : ProxyAuth} (next : Unit → Handshake Bytes) :
    restOf (((socks5NegotiateAuth auth).bind next).run ioError (.clean split) i
      ([0x05, 0x00] ++ rest)) = restOf ((next ()).run ioError (.clean split) (i + 2) rest) := by
  unfold socks5NegotiateAuth
  simp [Dialogue.sendAll, Dialogue.readExact, Dialogue.bind, Dialogue.run, Dialogue.Network.clean,
    Dialogue.firstBytes, restOf, Dialogue.Outcome.cons]

theorem restOf_password {username password : String} {request : Bytes} {version : UInt8}
    (hrequest : buildSocks5AuthRequest username password = .ok request)
    (next : Unit → Handshake Bytes) :
    restOf (((socks5NegotiateAuth (.usernamePassword username password)).bind next).run ioError
      (.clean split) i ([0x05, 0x02] ++ ([version, 0x00] ++ rest))) =
        restOf ((next ()).run ioError (.clean split) (i + 4) rest) := by
  have hstatus : #v[version, 0x00].get 1 = 0x00 := rfl
  unfold socks5NegotiateAuth
  simp [Dialogue.sendAll, Dialogue.readExact, Dialogue.bind, Dialogue.run, Dialogue.Network.clean,
    Dialogue.firstBytes, socks5UsernameAuth, hrequest, hstatus, restOf, Dialogue.Outcome.cons]

/-- Behind a reply the handshake has its result, with the rest of the stream. -/
theorem restOf_reply {proxy : UpstreamProxy} {reply : Bytes} (hreply : Reply proxy.protocol reply)
    (hsendable : Sendable proxy.protocol) (payload : Bytes) :
    restOf ((connectViaProxy proxy dest hostname).run ioError (.clean split) 0
      (reply ++ payload)) = .ok payload := by
  obtain ⟨protocol, addr⟩ := proxy
  cases hreply with
  | @http header hfirst hlen hstatus =>
    have hrun := run_handshakeHttpConnect dest hostname split
      (header ++ headerTerminator ++ payload)
    exact hrun.trans (connectOutcome_eq_ok_iff.mpr ⟨header,
      (splitsAtFirst_append payload).mpr hfirst, hlen, hstatus.isSome_fromUtf8, hstatus⟩)
  | noAuth hbound =>
    rw [connectViaProxy_socks5, List.append_assoc, restOf_noAuth]
    exact restOf_command hbound
  | password hbound =>
    have hrequest := buildSocks5AuthRequest_ok hsendable.1 hsendable.2
    rw [connectViaProxy_socks5, List.append_assoc, List.append_assoc, restOf_password hrequest]
    exact restOf_command hbound

end Complete

end Handshakes

namespace Connection
variable {p : Params} {leftover : Bytes} {c : Connection}

/-- The upstream proxy was sent a part of what the client sends, and all of it once the relay has
come to its end without the grace timer. -/
theorem Inv.carried_prefix (hc : Inv p leftover c) :
    (c.relay.ends .server).written <+: (c.relay.ends .client).sent := by
  rw [hc.relay.received .client, hc.relay.forwarded .client, List.append_assoc]
  exact List.prefix_append _ _

theorem Inv.carried_eq (hc : Inv p leftover c) {a b : UInt64}
    (htask : c.relay.task = .finished a b) (hfired : c.relay.graceFired = false) :
    (c.relay.ends .server).written = (c.relay.ends .client).sent := by
  obtain ⟨heof, _⟩ := hc.relay.finished a b htask
  obtain ⟨hempty, _⟩ := hc.relay.drained hfired .client (heof .client)
  rw [hc.relay.received .client, hempty, hc.relay.forwarded .client, htask]
  simp [Task.rest, Side.other]

end Connection

/-- What a handshake with a result has read of the stream. -/
theorem TunnelCall.stream_eq {call : TunnelCall} {net : Dialogue.Network} {stream leftover : Bytes}
    (hok : (call.handshake.run ioError net 0 stream).result = .ok leftover) :
    ∃ target reply, IsTarget call.dest call.hostname target ∧
      Opens call.proxy.protocol call.dest target (call.handshake.run ioError net 0 stream).trace
        leftover reply ∧
      stream = reply ++ (leftover ++ (call.handshake.run ioError net 0 stream).unread) := by
  obtain ⟨target, reply, htarget, hopens⟩ := opens_of_ok hok
  refine ⟨target, reply, htarget, hopens, ?_⟩
  rw [← List.append_assoc, ← hopens.received]
  exact (Dialogue.received_run ioError net call.handshake 0 stream).symm

/-- A connection in some run, with the rest of what the upstream proxy says. -/
def Connection.Reached (leftover unread : Bytes) (c : Connection) : Prop :=
  (∃ p client server now acts,
    (Connection.system p leftover client server now).run acts = some c) ∧ c.Feeds unread

/-- The upstream proxy has read a request for the target and behind it what was forwarded of the
bytes of the client, and the client was sent nothing but the payload. -/
structure Transparent (call : TunnelCall) (trace : List (Event Op)) (reply payload : Bytes)
    (c : Connection) : Prop where
  request : ∃ target, IsTarget call.dest call.hostname target ∧
    readAsServer call.proxy.protocol reply (sentBytes trace ++ (c.relay.ends .server).written) =
      some { credentials := givenCredentials call.proxy.protocol reply, host := target.text
             port := call.dest.port, carried := (c.relay.ends .server).written }
  carried : (c.relay.ends .server).written <+: (c.relay.ends .client).sent
  delivered : c.delivered <+: payload
  complete : ∀ a b, c.relay.task = .finished a b → c.relay.graceFired = false →
    (c.relay.ends .server).written = (c.relay.ends .client).sent ∧ c.delivered = payload

/-- With either protocol, any network and any server: a handshake with a result has read one reply
of the server, and maybe more of its stream. In every state of the connection from there on, what
was sent upstream reads as a request for the target with the bytes of the client behind it, and the
client is sent what the server says behind its reply. -/
theorem tunnel_transparent {call : TunnelCall} {net : Dialogue.Network} {stream leftover : Bytes}
    (hok : (call.handshake.run ioError net 0 stream).result = .ok leftover) :
    ∃ reply payload, stream = reply ++ payload ∧ Reply call.proxy.protocol reply ∧
      (∀ reply' payload', stream = reply' ++ payload' → Reply call.proxy.protocol reply' →
        payload' = payload) ∧
      ∀ c, Connection.Reached leftover (call.handshake.run ioError net 0 stream).unread c →
        Transparent call (call.handshake.run ioError net 0 stream).trace reply payload c := by
  obtain ⟨target, reply, htarget, hopens, hstream⟩ := TunnelCall.stream_eq hok
  refine ⟨reply, leftover ++ (call.handshake.run ioError net 0 stream).unread, hstream,
    hopens.opened, ?_, ?_⟩
  · intro reply' payload' heq hreply'
    exact hreply'.unique hopens.opened (heq.symm.trans hstream)
  · rintro c ⟨⟨p, client, server, now, acts, hrun⟩, hfeeds⟩
    have hc := Connection.inv_of_run hrun
    refine ⟨⟨target, htarget, hopens.request _⟩, hc.carried_prefix, ?_, ?_⟩
    · exact hc.delivered_prefix.trans ((List.prefix_append_right_inj leftover).mpr hfeeds.1)
    · intro a b htask hfired
      obtain ⟨hfin, hall⟩ := hc.delivered_eq htask hfired
      exact ⟨hc.carried_eq htask hfired, by rw [hall, hfeeds.2 hfin]⟩

/-- Where no operation fails, a tunnel is opened exactly if the server begins with a reply. -/
theorem tunnel_opens_iff {call : TunnelCall} (hsendable : Sendable call.proxy.protocol)
    (split : ℕ → ℕ) (stream : Bytes) :
    (∃ leftover, (call.handshake.run ioError (.clean split) 0 stream).result = .ok leftover) ↔
      ∃ reply payload, stream = reply ++ payload ∧ Reply call.proxy.protocol reply := by
  constructor
  · rintro ⟨leftover, hok⟩
    obtain ⟨target, reply, _, hopens, hstream⟩ := TunnelCall.stream_eq hok
    exact ⟨reply, _, hstream, hopens.opened⟩
  · rintro ⟨reply, payload, rfl, hreply⟩
    have hrest : restOf (call.handshake.run ioError (.clean split) 0 (reply ++ payload)) =
        .ok payload := restOf_reply hreply hsendable payload
    rw [restOf] at hrest
    cases hresult : (call.handshake.run ioError (.clean split) 0 (reply ++ payload)).result with
    | error e =>
      rw [hresult] at hrest
      cases hrest
    | ok leftover => exact ⟨leftover, rfl⟩

def sampleSocks5Call : TunnelCall :=
  { proxy := { protocol := .socks5 (.usernamePassword "u" "p"), addr := .v4 (.new 192 0 2 1) 1080 }
    dest := .v4 (.new 198 51 100 7) 443, hostname := some "a.example" }

theorem sampleSocks5Call_parsed :
    UpstreamProxy.fromStr { lookupHost := fun _ _ => .ok [], ifaddrs := none }
      "socks5://u:p@192.0.2.1:1080" = .ok sampleSocks5Call.proxy := by
  decide

/-- The server asks for the credentials, opens the tunnel and says one byte of its own. -/
def sampleSays : Bytes := [0x05, 0x02, 0x01, 0x00, 0x05, 0x00, 0x00, 0x01, 0, 0, 0, 0, 0, 0, 7]

theorem tunnel_opens_iff_sample : ∃ leftover,
    (sampleSocks5Call.handshake.run ioError (.clean fun _ => 0) 0 sampleSays).result =
      .ok leftover :=
  (@tunnel_opens_iff sampleSocks5Call (sendable_of_fromStr sampleSocks5Call_parsed) (fun _ => 0)
    sampleSays).mpr
      ⟨sampleSays.dropLast, [7], rfl, .password (.ipv4 rfl)⟩

theorem tunnel_transparent_sample :
    ∃ reply payload, sampleSays = reply ++ payload ∧ Reply sampleSocks5Call.proxy.protocol reply ∧
      (∀ reply' payload', sampleSays = reply' ++ payload' →
        Reply sampleSocks5Call.proxy.protocol reply' → payload' = payload) ∧
      ∀ c, Connection.Reached []
          (sampleSocks5Call.handshake.run ioError (.clean fun _ => 0) 0 sampleSays).unread c →
        Transparent sampleSocks5Call
          (sampleSocks5Call.handshake.run ioError (.clean fun _ => 0) 0 sampleSays).trace
          reply payload c :=
  tunnel_transparent (by decide)

end TransProxy.Proxy
