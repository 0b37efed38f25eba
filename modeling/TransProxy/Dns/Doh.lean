import TransProxy.Library.Lists
import TransProxy.Library.Transition
import TransProxy.Dns.Cache

/-!
# The forwarder with a DoH upstream

`run_doh` is a client loop, a completion task for each request it sends upstream and
a task for each query that joined such a request, over a shared cache, registry of
requests in flight and table. A task moves from one await or lock section to the
next in one step. Datagrams, what the DoH server returns, clock readings, visiting
orders and the success of each send are chosen by the action. The fields below the
history mark are never read by a task.
-/
namespace TransProxy.Dns.Doh
open Library Net

/-- A client datagram that is long enough to be a query. -/
structure Query where
  addr : SocketAddr
  packet : Bytes
  hlen : 12 ≤ packet.length

namespace Query

def txId (q : Query) : UInt16 := u16At q.packet 0 (by have := q.hlen; omega)

def key (q : Query) : Bytes := cacheKey q.packet

def name (q : Query) : String := (parseQueryName q.packet).getD ""

end Query

/-- A query with its number among the queries received. -/
structure Request where
  number : ℕ
  query : Query

/-- How a reply came about. -/
inductive Route where
  | nodata
  | cached
  | coalesced
  | leader
  | servfail
deriving DecidableEq

structure Reply where
  request : Request
  route : Route
  data : Bytes

/-- A reply that is still to be sent, and the addresses that enter the table before. -/
structure Delivery where
  reply : Reply
  ips : List IpAddr

inductive ClientTask where
  | receiving
  | lookingUp (request : Request)
  | joining (request : Request)
  | registering (request : Request)
  | delivering (delivery : Delivery)
  | stopped

/-- `none` is a request that failed. -/
abbrev Outcome := Option Bytes

inductive LeaderPhase where
  | requesting
  | storing (response : Bytes)
  | completing (outcome : Outcome)
  | broadcasting (reply : Reply)
  | delivering (delivery : Delivery)
  | finished

/-- The completion task of a request, with the messages sent on its channel. -/
structure Leader where
  request : Request
  phase : LeaderPhase
  sent : List Bytes
  -- history
  answer : Option Outcome

inductive FollowerPhase where
  | waiting
  | delivering (delivery : Delivery)
  | finished
  | dropped

/-- The task of a query that joined: the leader whose channel it listens to, and how many
messages had been sent there before. -/
structure Follower where
  request : Request
  leader : ℕ
  next : ℕ
  phase : FollowerPhase

/-- A `put`: whose response it was, and when it was stored. -/
structure Stored where
  request : Request
  response : Bytes
  time : Instant

/-- A `get` that found something, with its two clock readings. -/
structure Hit where
  request : Request
  now : Instant
  agedNow : Instant
  data : Bytes

structure State where
  cache : DnsCache
  inFlight : HashMap Bytes ℕ
  table : DnsTable
  client : ClientTask
  leaders : List Leader
  followers : List Follower
  sent : List Reply
  -- history
  queries : List Query
  stored : List Stored
  hits : List Hit

inductive Task where
  | client
  | leader (i : ℕ)
  | follower (j : ℕ)
deriving DecidableEq

inductive Action where
  /-- `recv_from` of the client loop. -/
  | datagram (addr : SocketAddr) (packet : Bytes)
  | clientError
  /-- `cache.get`, with its readings for the expiry and for the age. -/
  | lookup (now agedNow : Instant)
  /-- `coalescer.try_join`. -/
  | join
  /-- `coalescer.register`. -/
  | register
  /-- The end of `doh_query`. -/
  | respond (i : ℕ) (outcome : Outcome)
  /-- `cache.put`. -/
  | put (i : ℕ) (now : Instant) (clock : Bytes → Instant) (order : CacheOrder)
  /-- `coalescer.complete`. -/
  | complete (i : ℕ)
  /-- `tx.send`. -/
  | broadcast (i : ℕ)
  /-- `rx.recv`. -/
  | receive (j : ℕ)
  /-- One `table.insert`. -/
  | row (task : Task) (now evictNow : Instant) (order : HashMap.IterOrder IpAddr (String × Instant))
  /-- `send_to`. -/
  | send (task : Task) (ok : Bool)

/-! ## Channels -/

inductive Recv where
  | message (data : Bytes)
  | lagged
  | closed
  | pending

/-- A receiver sees the messages sent after it subscribed, unless the channel, which keeps
one message, has moved on. -/
def recv (sent : List Bytes) (isOpen : Bool) (next : ℕ) : Recv :=
  match sent[next]? with
  | some data => if 1 < sent.length - next then .lagged else .message data
  | none => if isOpen then .pending else .closed

def Leader.isOpen (inFlight : HashMap Bytes ℕ) (i : ℕ) (l : Leader) : Bool :=
  (match l.phase with
    | .finished => false
    | _ => true) || AList.lookup l.request.query.key inFlight == some i

/-! ## Steps -/

/-- The addresses that the reply resolves. -/
def Reply.resolve (r : Reply) : Delivery := ⟨r, (parseIpRecords r.data).getD []⟩

def receiveDatagram (stripAaaa : Bool) (s : State) (addr : SocketAddr) (packet : Bytes) : State :=
  if h : packet.length < 12 then s
  else
    let query : Query := ⟨addr, packet, Nat.le_of_not_lt h⟩
    let request : Request := ⟨s.queries.length, query⟩
    let s := { s with queries := s.queries ++ [query] }
    if stripAaaa ∧ parseQueryType packet = some dnsTypeAaaa then
      match buildNodata packet with
      | none => s
      | some resp => { s with client := .delivering ⟨⟨request, .nodata, resp⟩, []⟩ }
    else { s with client := .lookingUp request }

def lookUp (s : State) (request : Request) (now agedNow : Instant) : State :=
  match s.cache.get request.query.key request.query.txId now agedNow with
  | none => { s with client := .joining request }
  | some cached =>
    { s with
      client := .delivering (Reply.resolve ⟨request, .cached, cached⟩)
      hits := s.hits ++ [⟨request, now, agedNow, cached⟩] }

def tryJoin (s : State) (request : Request) : State :=
  match AList.lookup request.query.key s.inFlight with
  | none => { s with client := .registering request }
  | some i =>
    let next := (s.leaders[i]?.map (fun l => l.sent.length)).getD 0
    { s with
      client := .receiving
      followers := s.followers ++ [⟨request, i, next, .waiting⟩] }

def register (s : State) (request : Request) : State :=
  { s with
    client := .receiving
    inFlight := s.inFlight.insert request.query.key s.leaders.length
    leaders := s.leaders ++ [⟨request, .requesting, [], none⟩] }

def State.setLeader (s : State) (i : ℕ) (l : Leader) : State :=
  { s with leaders := s.leaders.set i l }

def State.setFollower (s : State) (j : ℕ) (f : Follower) : State :=
  { s with followers := s.followers.set j f }

/-- A response is stored if it resolves an address. -/
def afterAnswer : Outcome → LeaderPhase
  | none => .completing none
  | some response =>
    if (parseIpRecords response).isSome then .storing response else .completing (some response)

/-- What is broadcast behind `complete`, if anything. -/
def afterComplete (request : Request) : Outcome → LeaderPhase
  | some response => .broadcasting ⟨request, .leader, response⟩
  | none =>
    match buildServfail request.query.packet with
    | none => .finished
    | some servfail => .broadcasting ⟨request, .servfail, servfail⟩

/-- A SERVFAIL resolves nothing. -/
def afterBroadcast (reply : Reply) : LeaderPhase :=
  match reply.route with
  | .servfail => .delivering ⟨reply, []⟩
  | _ => .delivering reply.resolve

def receive (s : State) (j : ℕ) (f : Follower) : Option State :=
  match s.leaders[f.leader]? with
  | none => none
  | some l =>
    match recv l.sent (l.isOpen s.inFlight f.leader) f.next with
    | .pending => none
    | .message data =>
      let resp := restoreTxId data f.request.query.txId
      some (s.setFollower j
        { f with phase := .delivering (Reply.resolve ⟨f.request, .coalesced, resp⟩) })
    | _ => some (s.setFollower j { f with phase := .dropped })

/-- What the task is about to deliver. -/
def State.delivery (s : State) : Task → Option Delivery
  | .client =>
    match s.client with
    | .delivering d => some d
    | _ => none
  | .leader i =>
    match s.leaders[i]? with
    | some ⟨_, .delivering d, _, _⟩ => some d
    | _ => none
  | .follower j =>
    match s.followers[j]? with
    | some ⟨_, _, _, .delivering d⟩ => some d
    | _ => none

def State.deliver (s : State) (task : Task) (d : Option Delivery) : State :=
  match task with
  | .client =>
    { s with client := (d.map ClientTask.delivering).getD .receiving }
  | .leader i =>
    match s.leaders[i]? with
    | none => s
    | some l => s.setLeader i { l with phase := (d.map LeaderPhase.delivering).getD .finished }
  | .follower j =>
    match s.followers[j]? with
    | none => s
    | some f => s.setFollower j { f with phase := (d.map FollowerPhase.delivering).getD .finished }

def step (stripAaaa : Bool) (s : State) : Action → Option State
  | .datagram addr packet =>
    match s.client with
    | .receiving => some (receiveDatagram stripAaaa s addr packet)
    | _ => none
  | .clientError =>
    match s.client with
    | .receiving => some { s with client := .stopped }
    | _ => none
  | .lookup now agedNow =>
    match s.client with
    | .lookingUp request => some (lookUp s request now agedNow)
    | _ => none
  | .join =>
    match s.client with
    | .joining request => some (tryJoin s request)
    | _ => none
  | .register =>
    match s.client with
    | .registering request => some (register s request)
    | _ => none
  | .respond i outcome =>
    match s.leaders[i]? with
    | some ⟨request, .requesting, sent, _⟩ =>
      some (s.setLeader i ⟨request, afterAnswer outcome, sent, some outcome⟩)
    | _ => none
  | .put i now clock order =>
    match s.leaders[i]? with
    | some ⟨request, .storing response, sent, answer⟩ =>
      let s := s.setLeader i ⟨request, .completing (some response), sent, answer⟩
      some { s with
        cache := s.cache.put order request.query.key response now clock
        stored := s.stored ++ [⟨request, response, now⟩] }
    | _ => none
  | .complete i =>
    match s.leaders[i]? with
    | some ⟨request, .completing outcome, sent, answer⟩ =>
      let s := s.setLeader i ⟨request, afterComplete request outcome, sent, answer⟩
      some { s with inFlight := s.inFlight.erase request.query.key }
    | _ => none
  | .broadcast i =>
    match s.leaders[i]? with
    | some ⟨request, .broadcasting reply, sent, answer⟩ =>
      some (s.setLeader i ⟨request, afterBroadcast reply, sent ++ [reply.data], answer⟩)
    | _ => none
  | .receive j =>
    match s.followers[j]? with
    | some ⟨request, leader, next, .waiting⟩ => receive s j ⟨request, leader, next, .waiting⟩
    | _ => none
  | .row task now evictNow order =>
    match s.delivery task with
    | some ⟨reply, ip :: ips⟩ =>
      let s := s.deliver task (some ⟨reply, ips⟩)
      some { s with
        table := s.table.insert order ip reply.request.query.name (tableTtl reply.data) now evictNow }
    | _ => none
  | .send task ok =>
    match s.delivery task with
    | some ⟨reply, []⟩ =>
      let s := s.deliver task none
      some { s with sent := if ok then s.sent ++ [reply] else s.sent }
    | _ => none

/-- Nothing cached and nothing in flight; the table is shared and may hold anything. -/
def initial (table : DnsTable) : State :=
  { cache := ∅, inFlight := ∅, table, client := .receiving, leaders := [], followers := [], sent := []
    queries := [], stored := [], hits := [] }

def system (stripAaaa : Bool) (table : DnsTable) : System State Action :=
  { init := initial table, step := step stripAaaa }

/-! ## What a delivery leaves alone -/

section Deliver
variable (s : State) (task : Task) (d : Option Delivery)

theorem exists_deliver_eq : ∃ client leaders followers,
    s.deliver task d = { s with client, leaders, followers } := by
  unfold State.deliver
  split
  · exact ⟨_, _, _, rfl⟩
  · split
    · exact ⟨_, _, _, rfl⟩
    · exact ⟨_, _, _, rfl⟩
  · split
    · exact ⟨_, _, _, rfl⟩
    · exact ⟨_, _, _, rfl⟩

@[simp] theorem cache_deliver : (s.deliver task d).cache = s.cache := by
  obtain ⟨_, _, _, h⟩ := exists_deliver_eq s task d
  rw [h]

@[simp] theorem table_deliver : (s.deliver task d).table = s.table := by
  obtain ⟨_, _, _, h⟩ := exists_deliver_eq s task d
  rw [h]

@[simp] theorem inFlight_deliver : (s.deliver task d).inFlight = s.inFlight := by
  obtain ⟨_, _, _, h⟩ := exists_deliver_eq s task d
  rw [h]

@[simp] theorem sent_deliver : (s.deliver task d).sent = s.sent := by
  obtain ⟨_, _, _, h⟩ := exists_deliver_eq s task d
  rw [h]

@[simp] theorem stored_deliver : (s.deliver task d).stored = s.stored := by
  obtain ⟨_, _, _, h⟩ := exists_deliver_eq s task d
  rw [h]

@[simp] theorem hits_deliver : (s.deliver task d).hits = s.hits := by
  obtain ⟨_, _, _, h⟩ := exists_deliver_eq s task d
  rw [h]

end Deliver

theorem exists_receiveDatagram_eq (s : State) (stripAaaa : Bool) (addr : SocketAddr)
    (packet : Bytes) : ∃ client queries,
    receiveDatagram stripAaaa s addr packet = { s with client, queries } := by
  dsimp only [receiveDatagram]
  split_ifs
  · exact ⟨_, _, rfl⟩
  · cases buildNodata packet with
    | none => exact ⟨_, _, rfl⟩
    | some resp => exact ⟨_, _, rfl⟩
  · exact ⟨_, _, rfl⟩

/-! ## What one step can do -/

/-- A lookup misses the cache or serves a hit. -/
theorem lookUp_cases (s : State) (request : Request) (now agedNow : Instant) :
    s.cache.get request.query.key request.query.txId now agedNow = none ∧
      lookUp s request now agedNow = { s with client := .joining request } ∨
    ∃ cached, s.cache.get request.query.key request.query.txId now agedNow = some cached ∧
      lookUp s request now agedNow =
        { s with
          client := .delivering (Reply.resolve ⟨request, .cached, cached⟩)
          hits := s.hits ++ [⟨request, now, agedNow, cached⟩] } := by
  unfold lookUp
  cases hget : s.cache.get request.query.key request.query.txId now agedNow with
  | none => exact .inl ⟨rfl, rfl⟩
  | some cached => exact .inr ⟨cached, rfl, rfl⟩

/-- Nobody asks for the key yet, or the request follows the one that does. -/
theorem tryJoin_cases (s : State) (request : Request) :
    AList.lookup request.query.key s.inFlight = none ∧
      tryJoin s request = { s with client := .registering request } ∨
    ∃ i, AList.lookup request.query.key s.inFlight = some i ∧
      tryJoin s request =
        { s with
          client := .receiving
          followers := s.followers ++
            [⟨request, i, (s.leaders[i]?.map (fun l => l.sent.length)).getD 0, .waiting⟩] } := by
  unfold tryJoin
  cases hlookup : AList.lookup request.query.key s.inFlight with
  | none => exact .inl ⟨rfl, rfl⟩
  | some i => exact .inr ⟨i, rfl, rfl⟩

section Inversion
variable {stripAaaa : Bool} {s t : State}

theorem step_datagram {addr : SocketAddr} {packet : Bytes}
    (h : step stripAaaa s (.datagram addr packet) = some t) :
    s.client = .receiving ∧ t = receiveDatagram stripAaaa s addr packet := by
  cases hclient : s.client <;> simp only [step, hclient, reduceCtorEq] at h
  exact ⟨rfl, (Option.some.inj h).symm⟩

theorem step_clientError (h : step stripAaaa s .clientError = some t) :
    t = { s with client := .stopped } := by
  cases hclient : s.client <;> simp only [step, hclient, reduceCtorEq] at h
  exact (Option.some.inj h).symm

theorem step_lookup {now agedNow : Instant} (h : step stripAaaa s (.lookup now agedNow) = some t) :
    ∃ request, s.client = .lookingUp request ∧ t = lookUp s request now agedNow := by
  cases hclient : s.client <;> simp only [step, hclient, reduceCtorEq] at h
  exact ⟨_, rfl, (Option.some.inj h).symm⟩

theorem step_join (h : step stripAaaa s .join = some t) :
    ∃ request, s.client = .joining request ∧ t = tryJoin s request := by
  cases hclient : s.client <;> simp only [step, hclient, reduceCtorEq] at h
  exact ⟨_, rfl, (Option.some.inj h).symm⟩

theorem step_register (h : step stripAaaa s .register = some t) :
    ∃ request, s.client = .registering request ∧ t = register s request := by
  cases hclient : s.client <;> simp only [step, hclient, reduceCtorEq] at h
  exact ⟨_, rfl, (Option.some.inj h).symm⟩

theorem step_respond {i : ℕ} {outcome : Outcome}
    (h : step stripAaaa s (.respond i outcome) = some t) :
    ∃ request sent answer, s.leaders[i]? = some ⟨request, .requesting, sent, answer⟩ ∧
      t = s.setLeader i ⟨request, afterAnswer outcome, sent, some outcome⟩ := by
  simp only [step] at h
  split at h
  · next request sent answer hl => exact ⟨request, sent, answer, hl, (Option.some.inj h).symm⟩
  · cases h

theorem step_put {i : ℕ} {now : Instant} {clock : Bytes → Instant} {order : CacheOrder}
    (h : step stripAaaa s (.put i now clock order) = some t) :
    ∃ request response sent answer,
      s.leaders[i]? = some ⟨request, .storing response, sent, answer⟩ ∧
        t = { s.setLeader i ⟨request, .completing (some response), sent, answer⟩ with
          cache := s.cache.put order request.query.key response now clock
          stored := s.stored ++ [⟨request, response, now⟩] } := by
  simp only [step] at h
  split at h
  · next request response sent answer hl =>
      exact ⟨request, response, sent, answer, hl, (Option.some.inj h).symm⟩
  · cases h

theorem step_complete {i : ℕ} (h : step stripAaaa s (.complete i) = some t) :
    ∃ request outcome sent answer,
      s.leaders[i]? = some ⟨request, .completing outcome, sent, answer⟩ ∧
        t = { s.setLeader i ⟨request, afterComplete request outcome, sent, answer⟩ with
          inFlight := s.inFlight.erase request.query.key } := by
  simp only [step] at h
  split at h
  · next request outcome sent answer hl =>
      exact ⟨request, outcome, sent, answer, hl, (Option.some.inj h).symm⟩
  · cases h

theorem step_broadcast {i : ℕ} (h : step stripAaaa s (.broadcast i) = some t) :
    ∃ request reply sent answer,
      s.leaders[i]? = some ⟨request, .broadcasting reply, sent, answer⟩ ∧
        t = s.setLeader i ⟨request, afterBroadcast reply, sent ++ [reply.data], answer⟩ := by
  simp only [step] at h
  split at h
  · next request reply sent answer hl =>
      exact ⟨request, reply, sent, answer, hl, (Option.some.inj h).symm⟩
  · cases h

theorem step_receive {j : ℕ} (h : step stripAaaa s (.receive j) = some t) :
    ∃ f l, s.followers[j]? = some f ∧ f.phase = .waiting ∧ s.leaders[f.leader]? = some l ∧
      ((∃ data, recv l.sent (l.isOpen s.inFlight f.leader) f.next = .message data ∧
          t = s.setFollower j { f with phase := .delivering (Reply.resolve
            ⟨f.request, .coalesced, restoreTxId data f.request.query.txId⟩) }) ∨
        (∀ data, recv l.sent (l.isOpen s.inFlight f.leader) f.next ≠ .message data) ∧
          recv l.sent (l.isOpen s.inFlight f.leader) f.next ≠ .pending ∧
            t = s.setFollower j { f with phase := .dropped }) := by
  simp only [step] at h
  split at h
  · next request leader next hf =>
    simp only [receive] at h
    cases hl : s.leaders[leader]? with
    | none => simp [hl] at h
    | some l =>
      simp only [hl] at h
      refine ⟨_, l, hf, rfl, hl, ?_⟩
      cases hrecv : recv l.sent (l.isOpen s.inFlight leader) next with
      | pending => simp [hrecv] at h
      | message data => exact .inl ⟨data, rfl, by simpa [hrecv] using h.symm⟩
      | lagged => exact .inr ⟨by simp, by simp, by simpa [hrecv] using h.symm⟩
      | closed => exact .inr ⟨by simp, by simp, by simpa [hrecv] using h.symm⟩
  · cases h

theorem step_row {task : Task} {now evictNow : Instant}
    {order : HashMap.IterOrder IpAddr (String × Instant)}
    (h : step stripAaaa s (.row task now evictNow order) = some t) :
    ∃ reply ip ips, s.delivery task = some ⟨reply, ip :: ips⟩ ∧
      t = { s.deliver task (some ⟨reply, ips⟩) with
        table := (s.deliver task (some ⟨reply, ips⟩)).table.insert order ip
          reply.request.query.name (tableTtl reply.data) now evictNow } := by
  simp only [step] at h
  split at h
  · next reply ip ips hd => exact ⟨reply, ip, ips, hd, (Option.some.inj h).symm⟩
  · cases h

theorem step_send {task : Task} {ok : Bool} (h : step stripAaaa s (.send task ok) = some t) :
    ∃ reply, s.delivery task = some ⟨reply, []⟩ ∧
      t = { s.deliver task none with
        sent := if ok then (s.deliver task none).sent ++ [reply] else (s.deliver task none).sent } := by
  simp only [step] at h
  split at h
  · next reply hd => exact ⟨reply, hd, (Option.some.inj h).symm⟩
  · cases h

theorem delivery_client {d : Delivery} (h : s.delivery .client = some d) :
    s.client = .delivering d := by
  cases hclient : s.client <;> simp only [State.delivery, hclient, reduceCtorEq] at h
  rw [Option.some.inj h]

theorem delivery_leader {i : ℕ} {d : Delivery} (h : s.delivery (.leader i) = some d) :
    ∃ request sent answer, s.leaders[i]? = some ⟨request, .delivering d, sent, answer⟩ := by
  simp only [State.delivery] at h
  split at h
  · next request d' sent answer hl =>
      obtain rfl := Option.some.inj h
      exact ⟨request, sent, answer, hl⟩
  · cases h

theorem delivery_follower {j : ℕ} {d : Delivery} (h : s.delivery (.follower j) = some d) :
    ∃ request leader next, s.followers[j]? = some ⟨request, leader, next, .delivering d⟩ := by
  simp only [State.delivery] at h
  split at h
  · next request leader next d' hf =>
      obtain rfl := Option.some.inj h
      exact ⟨request, leader, next, hf⟩
  · cases h

/-- A step that is no row leaves the table alone. -/
theorem table_of_step {a : Action} (h : step stripAaaa s a = some t)
    (ha : ∀ task now evictNow order, a ≠ .row task now evictNow order) : t.table = s.table := by
  cases a with
  | datagram addr packet =>
    obtain ⟨_, rfl⟩ := step_datagram h
    obtain ⟨client, queries, heq⟩ := exists_receiveDatagram_eq s stripAaaa addr packet
    rw [heq]
  | clientError => rw [step_clientError h]
  | lookup now agedNow =>
    obtain ⟨request, _, rfl⟩ := step_lookup h
    obtain ⟨_, h⟩ | ⟨_, _, h⟩ := lookUp_cases s request now agedNow <;> rw [h]
  | join =>
    obtain ⟨request, _, rfl⟩ := step_join h
    obtain ⟨_, h⟩ | ⟨_, _, h⟩ := tryJoin_cases s request <;> rw [h]
  | register =>
    obtain ⟨request, _, rfl⟩ := step_register h
    rfl
  | respond i outcome =>
    obtain ⟨_, _, _, _, rfl⟩ := step_respond h
    rfl
  | put i now clock order =>
    obtain ⟨_, _, _, _, _, rfl⟩ := step_put h
    rfl
  | complete i =>
    obtain ⟨_, _, _, _, _, rfl⟩ := step_complete h
    rfl
  | broadcast i =>
    obtain ⟨_, _, _, _, _, rfl⟩ := step_broadcast h
    rfl
  | receive j =>
    obtain ⟨_, _, _, _, _, ⟨_, _, rfl⟩ | ⟨_, _, rfl⟩⟩ := step_receive h <;> rfl
  | row task now evictNow order => exact absurd rfl (ha task now evictNow order)
  | send task ok =>
    obtain ⟨reply, _, rfl⟩ := step_send h
    exact table_deliver s task none

theorem table_of_row {task : Task} {reply : Reply} {ip : IpAddr} {ips : List IpAddr}
    {now evictNow : Instant} {order : HashMap.IterOrder IpAddr (String × Instant)}
    (hd : s.delivery task = some ⟨reply, ip :: ips⟩)
    (h : step stripAaaa s (.row task now evictNow order) = some t) :
    t.table = s.table.insert order ip reply.request.query.name (tableTtl reply.data) now evictNow := by
  obtain ⟨reply', ip', ips', hd', rfl⟩ := step_row h
  obtain ⟨rfl, rfl, rfl⟩ : reply' = reply ∧ ip' = ip ∧ ips' = ips := by
    simpa [eq_comm] using hd'.symm.trans hd
  rw [← table_deliver s task (some ⟨reply', ips'⟩)]

end Inversion

end TransProxy.Dns.Doh
