import TransProxy.Library.Transition
import TransProxy.Dns.Pending
import TransProxy.Dns.Table

/-!
# The forwarder with a UDP upstream

`run_udp` is two tasks over a shared pending map: the client loop and the
upstream reader. A task moves from one await or lock section to the next in one
step. Datagrams, random draws, clock readings, visiting orders and the success
of each send are chosen by the action. The fields below the history mark are
never read by a task.
-/
namespace TransProxy.Dns.Udp
open Library Net

structure ClientQuery where
  addr : SocketAddr
  packet : Bytes
deriving DecidableEq

structure Outstanding where
  query : ℕ
  id : UInt16
deriving DecidableEq

/-- An upstream datagram that matched a pending query. -/
structure Acceptance where
  query : Option ℕ
  datagram : Bytes
  name : String
  entry : PendingQuery

/-- A datagram sent to a client on behalf of the upstream. -/
structure Reply where
  acceptance : Acceptance
  addr : SocketAddr
  data : Bytes

inductive ClientTask where
  | receiving
  | forwarding (packet : Bytes)
  | stopped

/-- `resolving` holds the addresses that still have to enter the table. -/
inductive ReaderTask where
  | receiving
  | resolving (acceptance : Acceptance) (ips : List IpAddr)

structure State where
  pending : PendingMap
  table : DnsTable
  client : ClientTask
  reader : ReaderTask
  sentUpstream : List Bytes
  sentNodata : List (SocketAddr × Bytes)
  relayed : List Reply
  -- history
  queries : List ClientQuery
  outstanding : List Outstanding
  accepted : List Acceptance

inductive Action where
  /-- `recv_from` of the client loop, up to the end of its lock section. -/
  | clientDatagram (addr : SocketAddr) (packet : Bytes) (created now : Instant)
      (order : PendingOrder) (draws : ℕ → UInt16)
  | clientError
  /-- `send` of the rewritten query. -/
  | forward (ok : Bool)
  /-- `recv` of the reader, up to the end of its lock section. -/
  | upstreamDatagram (datagram : Bytes)
  /-- One `resp_table.insert`. -/
  | insertRow (now evictNow : Instant) (order : HashMap.IterOrder IpAddr (String × Instant))
  /-- `send_to` of the restored response. -/
  | reply (ok : Bool)

/-- `buf[..2].copy_from_slice(&id.to_be_bytes())`. -/
def setTxId (packet : Bytes) (id : UInt16) : Bytes := u16ToBeBytes id ++ packet.drop 2

def clientReceive (stripAaaa : Bool) (s : State) (addr : SocketAddr) (packet : Bytes)
    (created now : Instant) (order : PendingOrder) (draws : ℕ → UInt16) : State :=
  if h : packet.length < 12 then s
  else
    let clientTxId := u16At packet 0 (by omega)
    let queryName := (parseQueryName packet).getD ""
    let qtype := (parseQueryType packet).getD 0
    if stripAaaa ∧ qtype = dnsTypeAaaa then
      match buildNodata packet with
      | none => s
      | some resp => { s with sentNodata := s.sentNodata ++ [(addr, resp)] }
    else
      let entry : PendingQuery :=
        { clientAddr := addr, clientTxId, name := queryName, qtype, created }
      let survivors := pendingSurvivors order s.pending now
      let outstanding := s.outstanding.filter (fun o => decide (o.id ∈ survivors))
      match pendingInsert s.pending entry now order draws with
      | (none, map) => { s with pending := map, outstanding }
      | (some id, map) =>
        { s with
          pending := map
          client := .forwarding (setTxId packet id)
          queries := s.queries ++ [⟨addr, packet⟩]
          outstanding := outstanding ++ [⟨s.queries.length, id⟩] }

/-- The checks of the reader on a datagram, against the pending map. -/
def readerMatch (pending : PendingMap) (buf : Bytes) :
    Option (UInt16 × String × PendingQuery × PendingMap) :=
  if h : buf.length < 12 then none
  else if getElem buf 2 (flags_inBounds h) &&& 0x80 = 0 then none
  else
    let txId := u16At buf 0 (by omega)
    match parseQueryName buf with
    | none => none
    | some respName =>
      let respQtype := (parseQueryType buf).getD 0
      match pendingTakeMatch pending txId respName respQtype with
      | none => none
      | some (entry, map) => some (txId, respName, entry, map)

def readerReceive (s : State) (datagram : Bytes) : State :=
  match readerMatch s.pending datagram with
  | none => s
  | some (txId, name, entry, map) =>
    let query := (s.outstanding.find? (fun o => o.id == txId)).map Outstanding.query
    let acceptance : Acceptance := { query, datagram, name, entry }
    { s with
      pending := map
      reader := .resolving acceptance ((parseIpRecords datagram).getD [])
      outstanding := s.outstanding.filter (fun o => o.id != txId)
      accepted := s.accepted ++ [acceptance] }

def step (stripAaaa : Bool) (s : State) : Action → Option State
  | .clientDatagram addr packet created now order draws =>
    match s.client with
    | .receiving => some (clientReceive stripAaaa s addr packet created now order draws)
    | _ => none
  | .clientError =>
    match s.client with
    | .receiving => some { s with client := .stopped }
    | _ => none
  | .forward ok =>
    match s.client with
    | .forwarding packet =>
      some { s with
        client := .receiving
        sentUpstream := if ok then s.sentUpstream ++ [packet] else s.sentUpstream }
    | _ => none
  | .upstreamDatagram datagram =>
    match s.reader with
    | .receiving => some (readerReceive s datagram)
    | _ => none
  | .insertRow now evictNow order =>
    match s.reader with
    | .resolving acceptance (ip :: ips) =>
      some { s with
        table := s.table.insert order ip acceptance.name (tableTtl acceptance.datagram) now evictNow
        reader := .resolving acceptance ips }
    | _ => none
  | .reply ok =>
    match s.reader with
    | .resolving acceptance [] =>
      let sent : Reply :=
        { acceptance, addr := acceptance.entry.clientAddr
          data := setTxId acceptance.datagram acceptance.entry.clientTxId }
      some { s with
        reader := .receiving
        relayed := if ok then s.relayed ++ [sent] else s.relayed }
    | _ => none

/-- Nothing pending, both tasks waiting; the table is shared and may hold anything. -/
def initial (table : DnsTable) : State :=
  { pending := ∅, table, client := .receiving, reader := .receiving, sentUpstream := []
    sentNodata := [], relayed := [], queries := [], outstanding := [], accepted := [] }

def system (stripAaaa : Bool) (table : DnsTable) : System State Action :=
  { init := initial table, step := step stripAaaa }

/-- The pending entry records the client query it was made for. -/
def Records (q : ClientQuery) (entry : PendingQuery) : Prop :=
  ∃ h : 12 ≤ q.packet.length,
    entry.clientAddr = q.addr ∧ entry.clientTxId = u16At q.packet 0 (by omega) ∧
      entry.name = (parseQueryName q.packet).getD "" ∧
      entry.qtype = (parseQueryType q.packet).getD 0

/-- What the sweep and the eviction leave behind. -/
def State.purge (s : State) (survivors : PendingMap) : State :=
  { s with
    pending := survivors
    outstanding := s.outstanding.filter (fun o => decide (o.id ∈ survivors)) }

/-- A query goes upstream under an identifier that no survivor uses. -/
def State.enqueue (s : State) (q : ClientQuery) (entry : PendingQuery) (id : UInt16) : State :=
  { s with
    pending := s.pending.insert id entry
    client := .forwarding (setTxId q.packet id)
    queries := s.queries ++ [q]
    outstanding := s.outstanding ++ [⟨s.queries.length, id⟩] }

/-- The client loop answers or ignores a datagram, loses it, or sends it upstream. -/
theorem clientReceive_cases (stripAaaa : Bool) (s : State) (addr : SocketAddr) (packet : Bytes)
    (created now : Instant) (order : PendingOrder) (draws : ℕ → UInt16) :
    (∃ out, clientReceive stripAaaa s addr packet created now order draws =
        { s with sentNodata := out }) ∨
      clientReceive stripAaaa s addr packet created now order draws =
        s.purge (pendingSurvivors order s.pending now) ∨
      ∃ entry id, Records ⟨addr, packet⟩ entry ∧ id ∉ pendingSurvivors order s.pending now ∧
        clientReceive stripAaaa s addr packet created now order draws =
          (s.purge (pendingSurvivors order s.pending now)).enqueue ⟨addr, packet⟩ entry id := by
  unfold clientReceive
  by_cases hlen : packet.length < 12
  · exact .inl ⟨s.sentNodata, by simp [hlen]⟩
  by_cases hstrip : stripAaaa = true ∧ (parseQueryType packet).getD 0 = dnsTypeAaaa
  · left
    cases hresp : buildNodata packet with
    | none => exact ⟨s.sentNodata, by simp [hlen, hstrip]⟩
    | some resp => exact ⟨_, by simp only [hlen, hstrip, dif_neg, not_false_eq_true]; rfl⟩
  right
  simp only [hlen, hstrip, dif_neg, not_false_eq_true, if_false]
  generalize hentry : PendingQuery.mk addr _ _ _ created = entry
  cases hinsert : pendingInsert s.pending entry now order draws with
  | mk drawn map =>
    cases drawn with
    | none =>
      obtain rfl := pendingInsert_none hinsert
      exact .inl rfl
    | some id =>
      obtain ⟨hfree, rfl⟩ := pendingInsert_some hinsert
      refine .inr ⟨entry, id, ⟨Nat.le_of_not_lt hlen, ?_⟩, hfree, rfl⟩
      simp [← hentry]

theorem readerMatch_eq_some_iff {pending : PendingMap} {buf : Bytes} {txId : UInt16}
    {name : String} {entry : PendingQuery} {map : PendingMap} :
    readerMatch pending buf = some (txId, name, entry, map) ↔
      ∃ h : ¬buf.length < 12, getElem buf 2 (flags_inBounds h) &&& 0x80 ≠ 0 ∧
        u16At buf 0 (id_inBounds h) = txId ∧ parseQueryName buf = some name ∧
        pendingTakeMatch pending txId name ((parseQueryType buf).getD 0) = some (entry, map) := by
  unfold readerMatch
  by_cases hlen : buf.length < 12
  · simp [hlen]
  by_cases hqr : buf[2] &&& 0x80 = 0
  · simp [hlen, hqr]
  cases hname : parseQueryName buf with
  | none => simp [hlen, hqr]
  | some found =>
    cases htake : pendingTakeMatch pending (u16At buf 0 (by omega)) found
        ((parseQueryType buf).getD 0) with
    | none => grind
    | some taken => grind

/-- The datagram is accepted for the entry under the identifier, which leaves the map. -/
def State.accept (s : State) (id : UInt16) (acceptance : Acceptance) : State :=
  { s with
    pending := s.pending.erase id
    reader := .resolving acceptance ((parseIpRecords acceptance.datagram).getD [])
    outstanding := s.outstanding.filter (fun o => o.id != id)
    accepted := s.accepted ++ [acceptance] }

/-- The reader drops a datagram or accepts it. -/
theorem readerReceive_cases (s : State) (datagram : Bytes) :
    readerMatch s.pending datagram = none ∧ readerReceive s datagram = s ∨
      ∃ id name entry map, readerMatch s.pending datagram = some (id, name, entry, map) ∧
        readerReceive s datagram =
          s.accept id ⟨(s.outstanding.find? (fun o => o.id == id)).map Outstanding.query, datagram,
            name, entry⟩ := by
  unfold readerReceive
  cases hmatch : readerMatch s.pending datagram with
  | none => exact .inl ⟨rfl, rfl⟩
  | some found =>
    obtain ⟨id, name, entry, map⟩ := found
    obtain ⟨_, _, _, _, htake⟩ := readerMatch_eq_some_iff.mp hmatch
    obtain ⟨_, rfl, _, _⟩ := pendingTakeMatch_eq_some_iff.mp htake
    exact .inr ⟨id, name, entry, _, rfl, rfl⟩

section Inversion
variable {stripAaaa : Bool} {s t : State}

theorem step_clientDatagram {addr : SocketAddr} {packet : Bytes} {created now : Instant}
    {order : PendingOrder} {draws : ℕ → UInt16}
    (h : step stripAaaa s (.clientDatagram addr packet created now order draws) = some t) :
    s.client = .receiving ∧ t = clientReceive stripAaaa s addr packet created now order draws := by
  cases hclient : s.client <;> simp only [step, hclient, reduceCtorEq] at h
  exact ⟨rfl, (Option.some.inj h).symm⟩

theorem step_clientError (h : step stripAaaa s .clientError = some t) :
    t = { s with client := .stopped } := by
  cases hclient : s.client <;> simp only [step, hclient, reduceCtorEq] at h
  exact (Option.some.inj h).symm

theorem step_forward {ok : Bool} (h : step stripAaaa s (.forward ok) = some t) :
    ∃ sent, t = { s with client := .receiving, sentUpstream := sent } := by
  cases hclient : s.client <;> simp only [step, hclient, reduceCtorEq] at h
  exact ⟨_, (Option.some.inj h).symm⟩

theorem step_upstreamDatagram {datagram : Bytes}
    (h : step stripAaaa s (.upstreamDatagram datagram) = some t) :
    s.reader = .receiving ∧ t = readerReceive s datagram := by
  cases hreader : s.reader <;> simp only [step, hreader, reduceCtorEq] at h
  exact ⟨rfl, (Option.some.inj h).symm⟩

theorem step_insertRow {now evictNow : Instant} {order : HashMap.IterOrder IpAddr (String × Instant)}
    (h : step stripAaaa s (.insertRow now evictNow order) = some t) :
    ∃ acceptance ip ips rows, s.reader = .resolving acceptance (ip :: ips) ∧
      t = { s with table := rows, reader := .resolving acceptance ips } := by
  rcases hreader : s.reader with _ | ⟨acceptance, _ | ⟨ip, ips⟩⟩ <;>
    simp only [step, hreader, reduceCtorEq] at h
  exact ⟨acceptance, ip, ips, _, rfl, (Option.some.inj h).symm⟩

theorem table_of_insertRow {acceptance : Acceptance} {ip : IpAddr} {ips : List IpAddr}
    {now evictNow : Instant} {order : HashMap.IterOrder IpAddr (String × Instant)}
    (hreader : s.reader = .resolving acceptance (ip :: ips))
    (h : step stripAaaa s (.insertRow now evictNow order) = some t) :
    t.table =
      s.table.insert order ip acceptance.name (tableTtl acceptance.datagram) now evictNow := by
  simp only [step, hreader] at h
  rw [← Option.some.inj h]

/-- The reply restores the transaction ID of the client and goes to its address. -/
theorem step_reply {ok : Bool} (h : step stripAaaa s (.reply ok) = some t) :
    ∃ acceptance, s.reader = .resolving acceptance [] ∧
      t = { s with
        reader := .receiving
        relayed := if ok then s.relayed ++ [⟨acceptance, acceptance.entry.clientAddr,
          setTxId acceptance.datagram acceptance.entry.clientTxId⟩] else s.relayed } := by
  rcases hreader : s.reader with _ | ⟨acceptance, _ | ⟨ip, ips⟩⟩ <;>
    simp only [step, hreader, reduceCtorEq] at h
  exact ⟨acceptance, rfl, (Option.some.inj h).symm⟩

/-- A row is the only step that changes the table. -/
theorem table_of_step {a : Action} (h : step stripAaaa s a = some t)
    (ha : ∀ now evictNow order, a ≠ .insertRow now evictNow order) : t.table = s.table := by
  cases a with
  | clientDatagram addr packet created now order draws =>
    obtain ⟨_, rfl⟩ := step_clientDatagram h
    obtain ⟨out, h⟩ | h | ⟨entry, id, _, _, h⟩ :=
      clientReceive_cases stripAaaa s addr packet created now order draws
    · rw [h]
    · rw [h]
      rfl
    · rw [h]
      rfl
  | clientError => rw [step_clientError h]
  | forward ok =>
    obtain ⟨sent, rfl⟩ := step_forward h
    rfl
  | upstreamDatagram datagram =>
    obtain ⟨_, rfl⟩ := step_upstreamDatagram h
    obtain ⟨_, h⟩ | ⟨_, _, _, _, _, h⟩ := readerReceive_cases s datagram
    · rw [h]
    · rw [h]
      rfl
  | insertRow now evictNow order => exact absurd rfl (ha now evictNow order)
  | reply ok =>
    obtain ⟨_, _, rfl⟩ := step_reply h
    rfl

end Inversion

end TransProxy.Dns.Udp
