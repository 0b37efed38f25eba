import TransProxy.Tunnel.Socks5

/-!
# What the SOCKS5 client sends, and what it waits for

Every send of a handshake is guarded by the replies before it, whatever the server
sends and wherever its stream or the network breaks off.
-/
namespace TransProxy.Tunnel
open Library Net Dialogue

def offeredMethods (auth : ProxyAuth) : Bytes := (socks5Greeting auth).drop 2

/-- What follows the selection of a method until the server lets the client in. -/
inductive Authenticated (auth : ProxyAuth) : UInt8 → List (Event Op) → Prop
  | noAuth : Authenticated auth 0x00 []
  | password {username password : String} {req : Bytes} {version : UInt8}
      (hauth : auth = .usernamePassword username password)
      (hreq : buildSocks5AuthRequest username password = .ok req) :
      Authenticated auth 0x02 [.sent .auth req, .got .authResponse [version, 0x00]]

/-- A negotiation that went well: an offered method, and its authentication. -/
inductive Negotiated (auth : ProxyAuth) : List (Event Op) → Prop
  | mk {method : UInt8} {events : List (Event Op)} (hoffered : method ∈ offeredMethods auth)
      (h : Authenticated auth method events) :
      Negotiated auth ([.sent .greeting (socks5Greeting auth),
        .got .methodSelection [0x05, method]] ++ events)

inductive BoundAddress : UInt8 → List (Event Op) → Prop
  | ipv4 {data : Bytes} (h : data.length = 6) : BoundAddress 0x01 [.got .boundAddress data]
  | domain {len : UInt8} {data : Bytes} (h : data.length = len.toNat + 2) :
      BoundAddress 0x03 [.got .domainLength [len], .got .boundDomain data]
  | ipv6 {data : Bytes} (h : data.length = 18) : BoundAddress 0x04 [.got .boundIpv6 data]

/-- The guard of the sends: credentials after method 2 was selected, the request after
the whole negotiation. -/
def SendGuard (auth : ProxyAuth) (cmd : Command) (req : Bytes) (past : List (Event Op)) :
    Event Op → Prop
  | .sent op data =>
    (op = .auth → past = [.sent .greeting (socks5Greeting auth),
      .got .methodSelection [0x05, 0x02]] ∧ ∃ username password,
        auth = .usernamePassword username password ∧
          buildSocks5AuthRequest username password = .ok data) ∧
    (op = cmd.request → data = req ∧ Negotiated auth past)
  | .got _ _ => True

/-- A trace of negotiation, request, reply and bound address. -/
def Succeeds (auth : ProxyAuth) (cmd : Command) (req : Bytes) (trace : List (Event Op)) : Prop :=
  ∃ negotiation rsv atyp bound, Negotiated auth negotiation ∧ BoundAddress atyp bound ∧
    trace = negotiation ++ [.sent cmd.request req, .got cmd.response [0x05, 0x00, rsv, atyp]] ++
      bound

section Triples
variable {auth : ProxyAuth} {cmd : Command} {req : Bytes} {past : List (Event Op)}

theorem sendGuard_got (op : Op) (data : Bytes) : SendGuard auth cmd req past (.got op data) :=
  trivial

theorem triple_readSocks5BoundAddr (atyp : UInt8) :
    Triple (SendGuard auth cmd req) past (readSocks5BoundAddr atyp)
      (fun trace _ => ∃ bound, BoundAddress atyp bound ∧ trace = past ++ bound) := by
  unfold readSocks5BoundAddr
  split_ifs with h1 h3 h4
  · subst h1
    apply triple_recvExact (sendGuard_got _)
    intro buf
    exact triple_done ⟨_, .ipv4 (by simp), rfl⟩
  · subst h3
    apply triple_recvExact (sendGuard_got _)
    intro lenBuf
    apply triple_recvExact (sendGuard_got _)
    intro buf
    have hlen : lenBuf.toList = [lenBuf[0]] := toList_eq_ofFn lenBuf
    rw [hlen, List.append_assoc]
    exact triple_done ⟨_, .domain (by simp), rfl⟩
  · subst h4
    apply triple_recvExact (sendGuard_got _)
    intro buf
    exact triple_done ⟨_, .ipv6 (by simp), rfl⟩
  · exact triple_fail _

/-- The request is sent at once, and a reply of version 5 with status 0 is needed. -/
theorem triple_socks5Command (hcmd : cmd.request ≠ .auth) (hpast : Negotiated auth past) :
    Triple (SendGuard auth cmd req) past (socks5Command cmd req)
      (fun trace _ => Succeeds auth cmd req trace) := by
  apply triple_send ⟨fun heq => absurd heq hcmd, fun _ => ⟨rfl, hpast⟩⟩
  apply triple_recvExact (sendGuard_got _)
  intro respHeader
  have hheader : respHeader.toList = [respHeader[0], respHeader[1], respHeader[2],
      respHeader[3]] := toList_eq_ofFn respHeader
  simp only [done_bind]
  split_ifs with hversion hstatus
  · exact triple_fail _
  · exact triple_fail _
  · rw [hheader, not_not.mp hversion, not_not.mp hstatus]
    apply triple_mono (triple_readSocks5BoundAddr _)
    rintro _ _ ⟨bound, hbound, rfl⟩
    exact ⟨past, respHeader[2], respHeader[3], bound, hpast, hbound, by simp⟩

/-- The sub-negotiation, after method 2 was selected. -/
theorem triple_socks5UsernameAuth {username password : String} (hcmd : cmd.request ≠ .auth)
    (hauth : auth = .usernamePassword username password) :
    Triple (SendGuard auth cmd req) [.sent .greeting (socks5Greeting auth),
      .got .methodSelection [0x05, 0x02]] (socks5UsernameAuth username password)
        (fun trace _ => Negotiated auth trace) := by
  unfold socks5UsernameAuth
  cases hreq : buildSocks5AuthRequest username password with
  | error e => exact triple_fail _
  | ok authReq =>
    apply triple_send ⟨fun _ => ⟨rfl, username, password, hauth, hreq⟩,
      fun heq => absurd heq.symm hcmd⟩
    apply triple_recvExact (sendGuard_got _)
    intro authResp
    have hresp : authResp.toList = [authResp.get 0, authResp.get 1] := toList_eq_ofFn authResp
    simp only [done_bind]
    split_ifs with hstatus
    · exact triple_fail _
    · rw [hresp, not_not.mp hstatus]
      exact triple_done (.mk (by simp [hauth, offeredMethods, socks5Greeting])
        (.password hauth hreq))

theorem triple_socks5NegotiateAuth (hcmd : cmd.request ≠ .auth) (hgreet : cmd.request ≠ .greeting) :
    Triple (SendGuard auth cmd req) [] (socks5NegotiateAuth auth)
      (fun trace _ => Negotiated auth trace) := by
  apply triple_send ⟨fun heq => (by cases heq), fun heq => absurd heq.symm hgreet⟩
  apply triple_recvExact (sendGuard_got _)
  intro methodResp
  have hresp : methodResp.toList = [methodResp[0], methodResp[1]] := toList_eq_ofFn methodResp
  simp only [done_bind]
  split_ifs with hversion hnone hpass href
  · exact triple_fail _
  · rw [hresp, not_not.mp hversion, hnone]
    exact triple_done (.mk (by cases auth <;> simp [offeredMethods, socks5Greeting]) .noAuth)
  · rw [hresp, not_not.mp hversion, hpass]
    cases hauth : auth with
    | none => exact triple_fail _
    | usernamePassword username password =>
      subst hauth
      exact triple_socks5UsernameAuth hcmd rfl
  · exact triple_fail _
  · exact triple_fail _

/-- The two parts of a handshake, with some last step that sends and receives nothing. -/
theorem triple_handshake {α : Type} {finish : SocketAddr → α} (hcmd : cmd.request ≠ .auth)
    (hgreet : cmd.request ≠ .greeting) :
    Triple (SendGuard auth cmd req) [] ((socks5NegotiateAuth auth).bind fun _ =>
      (socks5Command cmd req).bind fun addr => .done (finish addr))
        (fun trace _ => Succeeds auth cmd req trace) := by
  apply triple_bind (triple_socks5NegotiateAuth hcmd hgreet)
  intro negotiation _ hnegotiation
  apply triple_bind (triple_socks5Command hcmd hnegotiation)
  intro trace addr hsucceeds
  exact triple_done hsucceeds

end Triples

/-- The bytes of a bound address and port. -/
inductive BoundBytes : UInt8 → Bytes → Prop
  | ipv4 {data : Bytes} (h : data.length = 6) : BoundBytes 0x01 data
  | domain {len : UInt8} {data : Bytes} (h : data.length = len.toNat + 2) :
      BoundBytes 0x03 (len :: data)
  | ipv6 {data : Bytes} (h : data.length = 18) : BoundBytes 0x04 data

theorem BoundAddress.received {atyp : UInt8} {trace : List (Event Op)}
    (h : BoundAddress atyp trace) : BoundBytes atyp (received trace) := by
  cases h with
  | ipv4 h => exact .ipv4 (by simpa [Dialogue.received] using h)
  | domain h => exact .domain (by simpa [Dialogue.received] using h)
  | ipv6 h => exact .ipv6 (by simpa [Dialogue.received] using h)

/-- What a handshake did on a stream: nothing was sent too early, and a success has read
its replies and not a byte more. -/
structure Socks5Sound {α : Type} (auth : ProxyAuth) (cmd : Command) (req stream : Bytes)
    (o : Outcome Op String α) : Prop where
  /-- The request is sent after the negotiation only. -/
  request : ∀ before data after, o.trace = before ++ .sent cmd.request data :: after →
    data = req ∧ Negotiated auth before
  /-- Credentials are sent after the selection of method 2 only. -/
  credentials : ∀ before data after, o.trace = before ++ .sent .auth data :: after →
    before = [.sent .greeting (socks5Greeting auth), .got .methodSelection [0x05, 0x02]] ∧
      ∃ username password, auth = .usernamePassword username password ∧
        buildSocks5AuthRequest username password = .ok data
  success : ∀ a, o.result = .ok a → Succeeds auth cmd req o.trace
  /-- The unread bytes begin behind the reply with its bound address. -/
  consumed : ∀ a, o.result = .ok a → ∃ method authReply rsv atyp bound,
    method ∈ offeredMethods auth ∧
      (method = 0x00 ∧ authReply = [] ∨ method = 0x02 ∧ ∃ version, authReply = [version, 0x00]) ∧
        BoundBytes atyp bound ∧
          stream = [0x05, method] ++ authReply ++ [0x05, 0x00, rsv, atyp] ++ bound ++ o.unread

theorem Negotiated.received {auth : ProxyAuth} {trace : List (Event Op)}
    (h : Negotiated auth trace) : ∃ method authReply, method ∈ offeredMethods auth ∧
      (method = 0x00 ∧ authReply = [] ∨ method = 0x02 ∧ ∃ version, authReply = [version, 0x00]) ∧
        received trace = [0x05, method] ++ authReply := by
  cases h with
  | mk hoffered h =>
    cases h with
    | noAuth => exact ⟨_, [], hoffered, .inl ⟨rfl, rfl⟩, rfl⟩
    | @password _ _ _ version _ _ =>
      exact ⟨_, [version, 0x00], hoffered, .inr ⟨rfl, version, rfl⟩, rfl⟩

section Sound
variable {auth : ProxyAuth} {cmd : Command} {req stream : Bytes} {α : Type}
  {o : Outcome Op String α}

theorem socks5Sound_of_guarded (hguarded : Guarded (SendGuard auth cmd req) [] o.trace)
    (hok : ∀ a, o.result = .ok a → Succeeds auth cmd req o.trace)
    (hreceived : received o.trace ++ o.unread = stream) : Socks5Sound auth cmd req stream o where
  request before data after htrace :=
    (guarded_iff.mp hguarded before _ after htrace).2 rfl
  credentials before data after htrace :=
    (guarded_iff.mp hguarded before _ after htrace).1 rfl
  success := hok
  consumed a ha := by
    obtain ⟨negotiation, rsv, atyp, bound, hnegotiated, hbound, htrace⟩ := hok a ha
    obtain ⟨method, authReply, hoffered, hreply, hbytes⟩ := hnegotiated.received
    refine ⟨method, authReply, rsv, atyp, _, hoffered, hreply, hbound.received, ?_⟩
    rw [← hreceived, htrace, received_append, received_append, hbytes]
    simp [received]

/-- The run of a handshake that ends in some pure step is sound. -/
theorem socks5Sound_run {finish : SocketAddr → α} (hcmd : cmd.request ≠ .auth)
    (hgreet : cmd.request ≠ .greeting) (net : Network) (stream : Bytes) :
    Socks5Sound auth cmd req stream (((socks5NegotiateAuth auth).bind fun _ =>
      (socks5Command cmd req).bind fun addr => .done (finish addr)).run ioError net 0 stream) :=
  have htriple := triple_handshake hcmd hgreet _ _ (plays_run ioError net _ 0 stream)
  socks5Sound_of_guarded htriple.1 htriple.2 (received_run ioError net _ 0 stream)

theorem connectViaProxy_socks5 (addr dest : SocketAddr) (hostname : Option String) :
    connectViaProxy { protocol := .socks5 auth, addr } dest hostname =
      (socks5NegotiateAuth auth).bind fun _ =>
        (socks5Command connectCommand (socks5ConnectRequest dest hostname)).bind fun _ =>
          .done [] := by
  simp only [connectViaProxy, socks5Connect, bind_eq, bind_assoc, pure_eq, done_bind]

end Sound

/-- Both handshakes, with any credentials, against any server and any network. -/
theorem socks5_sound (auth : ProxyAuth) (addr : SocketAddr) (net : Network) (stream : Bytes) :
    (∀ dest hostname, Socks5Sound auth connectCommand (socks5ConnectRequest dest hostname) stream
      ((connectViaProxy { protocol := .socks5 auth, addr } dest hostname).run
        ioError net 0 stream)) ∧
    Socks5Sound auth associateCommand socks5AssociateRequest stream
      ((udpAssociate { protocol := .socks5 auth, addr }).run ioError net 0 stream) := by
  constructor
  · intro dest hostname
    rw [connectViaProxy_socks5]
    exact socks5Sound_run (by decide) (by decide) net stream
  · exact socks5Sound_run (by decide) (by decide) net stream

end TransProxy.Tunnel
