import TransProxy.Dns.Question
import TransProxy.Dns.TableRefinement

/-!
# One DNS client over TCP

`handle_tcp_dns_client`: read a query behind its length, forward it, put what it
resolves into the table, write the response behind its length. A timeout, an error and
an early end of the stream all end the connection. The table is shared, so a step takes
it and gives it back.
-/
namespace TransProxy.Dns.Tcp
open Library Net

inductive Phase where
  | readingLength
  | readingQuery (len : ℕ)
  | forwarding (query : Bytes)
  | resolving (query response : Bytes) (ips : List IpAddr)
  | writing (rest : Bytes)
  | closed

structure Connection where
  phase : Phase
  inbox : Bytes
  written : Bytes
  -- history
  queries : List Bytes

inductive Action where
  /-- More of the stream arrives. -/
  | arrive (data : Bytes)
  | readLength
  | readQuery
  /-- The stream ends, an error, or a timeout while reading. -/
  | readFail
  /-- The end of `forward_tcp_dns_query`; `none` is an error or a timeout. -/
  | respond (outcome : Option Bytes)
  /-- One `table.insert`. -/
  | row (now evictNow : Instant) (order : HashMap.IterOrder IpAddr (String × Instant))
  /-- The socket takes some of the bytes. -/
  | write (n : ℕ)
  | writeFail

def start : Connection :=
  { phase := .readingLength, inbox := [], written := [], queries := [] }

/-- A message behind its length. -/
def frame (message : Bytes) : Bytes := u16ToBeBytes (UInt16.ofNat message.length) ++ message

def queryName (query : Bytes) : String := (parseQueryName query).getD ""

def gotLength (c : Connection) (hi lo : UInt8) (inbox : Bytes) : Connection :=
  let len := (u16FromBeBytes hi lo).toNat
  { c with inbox, phase := if len < 12 then .closed else .readingQuery len }

def gotQuery (stripAaaa : Bool) (c : Connection) (query inbox : Bytes) : Connection :=
  let c := { c with inbox, queries := c.queries ++ [query] }
  if stripAaaa ∧ parseQueryType query = some dnsTypeAaaa then
    match buildNodata query with
    | none => { c with phase := .readingLength }
    | some resp => { c with phase := .writing (frame resp) }
  else { c with phase := .forwarding query }

def gotResponse (c : Connection) (query : Bytes) : Option Bytes → Connection
  | none => { c with phase := .closed }
  | some response =>
    if response.length < 12 ∨ 65535 < response.length then { c with phase := .closed }
    else { c with phase := .resolving query response ((parseIpRecords response).getD []) }

def step (stripAaaa : Bool) (table : DnsTable) (c : Connection) :
    Action → Option (Connection × DnsTable)
  | .arrive data => some ({ c with inbox := c.inbox ++ data }, table)
  | .readLength =>
    match c.phase, c.inbox with
    | .readingLength, hi :: lo :: inbox => some (gotLength c hi lo inbox, table)
    | _, _ => none
  | .readQuery =>
    match c.phase with
    | .readingQuery len =>
      if c.inbox.length < len then none
      else some (gotQuery stripAaaa c (c.inbox.take len) (c.inbox.drop len), table)
    | _ => none
  | .readFail =>
    match c.phase with
    | .readingLength => some ({ c with phase := .closed }, table)
    | .readingQuery _ => some ({ c with phase := .closed }, table)
    | _ => none
  | .respond outcome =>
    match c.phase with
    | .forwarding query => some (gotResponse c query outcome, table)
    | _ => none
  | .row now evictNow order =>
    match c.phase with
    | .resolving query response (ip :: ips) =>
      some ({ c with phase := .resolving query response ips },
        table.insert order ip (queryName query) (tableTtl response) now evictNow)
    | _ => none
  | .write n =>
    match c.phase with
    | .resolving _ response [] =>
      some ({ c with
        phase := .writing ((frame response).drop n)
        written := c.written ++ (frame response).take n }, table)
    | .writing [] => some ({ c with phase := .readingLength }, table)
    | .writing rest =>
      some ({ c with phase := .writing (rest.drop n), written := c.written ++ rest.take n }, table)
    | _ => none
  | .writeFail =>
    match c.phase with
    | .resolving _ _ [] => some ({ c with phase := .closed }, table)
    | .writing _ => some ({ c with phase := .closed }, table)
    | _ => none

inductive Move (stripAaaa : Bool) (c : Connection) : Action → Connection → Prop
  | arrive (data : Bytes) : Move stripAaaa c (.arrive data) { c with inbox := c.inbox ++ data }
  | readLength {hi lo : UInt8} {inbox : Bytes} (hphase : c.phase = .readingLength)
      (hinbox : c.inbox = hi :: lo :: inbox) :
      Move stripAaaa c .readLength (gotLength c hi lo inbox)
  | readQuery {len : ℕ} (hphase : c.phase = .readingQuery len) (hlen : len ≤ c.inbox.length) :
      Move stripAaaa c .readQuery (gotQuery stripAaaa c (c.inbox.take len) (c.inbox.drop len))
  | readFail (hphase : c.phase = .readingLength ∨ ∃ len, c.phase = .readingQuery len) :
      Move stripAaaa c .readFail { c with phase := .closed }
  | respond {query : Bytes} (outcome : Option Bytes) (hphase : c.phase = .forwarding query) :
      Move stripAaaa c (.respond outcome) (gotResponse c query outcome)
  | row {query response : Bytes} {ip : IpAddr} {ips : List IpAddr} {now evictNow : Instant}
      {order : HashMap.IterOrder IpAddr (String × Instant)}
      (hphase : c.phase = .resolving query response (ip :: ips)) :
      Move stripAaaa c (.row now evictNow order) { c with phase := .resolving query response ips }
  | writeFirst {query response : Bytes} (n : ℕ) (hphase : c.phase = .resolving query response []) :
      Move stripAaaa c (.write n) { c with
        phase := .writing ((frame response).drop n)
        written := c.written ++ (frame response).take n }
  | wrote (n : ℕ) (hphase : c.phase = .writing []) :
      Move stripAaaa c (.write n) { c with phase := .readingLength }
  | write {rest : Bytes} (n : ℕ) (hphase : c.phase = .writing rest) :
      Move stripAaaa c (.write n) { c with
        phase := .writing (rest.drop n)
        written := c.written ++ rest.take n }
  | writeFail (hphase : (∃ query response, c.phase = .resolving query response []) ∨
      ∃ rest, c.phase = .writing rest) :
      Move stripAaaa c .writeFail { c with phase := .closed }

section Step
variable {stripAaaa : Bool} {table table' : DnsTable} {c c' : Connection} {a : Action}

/-- Every step is one of these, and only a row changes the table. -/
theorem step_cases (h : step stripAaaa table c a = some (c', table')) :
    Move stripAaaa c a c' ∧
      (table' = table ∨ ∃ now evictNow order, a = .row now evictNow order) := by
  cases a with
  | arrive data =>
    obtain ⟨rfl, rfl⟩ := Prod.mk.inj (Option.some.inj h)
    exact ⟨.arrive data, .inl rfl⟩
  | readLength =>
    simp only [step] at h
    split at h
    · next hi lo inbox hphase hinbox =>
      obtain ⟨rfl, rfl⟩ := Prod.mk.inj (Option.some.inj h)
      exact ⟨.readLength hphase hinbox, .inl rfl⟩
    · cases h
  | readQuery =>
    cases hphase : c.phase <;> simp only [step, hphase, reduceCtorEq] at h
    split_ifs at h with hlen
    obtain ⟨rfl, rfl⟩ := Prod.mk.inj (Option.some.inj h)
    exact ⟨.readQuery hphase (Nat.le_of_not_lt hlen), .inl rfl⟩
  | readFail =>
    cases hphase : c.phase <;> simp only [step, hphase, reduceCtorEq] at h
    · obtain ⟨rfl, rfl⟩ := Prod.mk.inj (Option.some.inj h)
      exact ⟨.readFail (.inl hphase), .inl rfl⟩
    · obtain ⟨rfl, rfl⟩ := Prod.mk.inj (Option.some.inj h)
      exact ⟨.readFail (.inr ⟨_, hphase⟩), .inl rfl⟩
  | respond outcome =>
    cases hphase : c.phase <;> simp only [step, hphase, reduceCtorEq] at h
    obtain ⟨rfl, rfl⟩ := Prod.mk.inj (Option.some.inj h)
    exact ⟨.respond outcome hphase, .inl rfl⟩
  | row now evictNow order =>
    simp only [step] at h
    split at h
    · next hphase =>
      obtain ⟨rfl, _⟩ := Prod.mk.inj (Option.some.inj h)
      exact ⟨.row hphase, .inr ⟨now, evictNow, order, rfl⟩⟩
    · cases h
  | write n =>
    simp only [step] at h
    split at h
    · next hphase =>
      obtain ⟨rfl, rfl⟩ := Prod.mk.inj (Option.some.inj h)
      exact ⟨.writeFirst n hphase, .inl rfl⟩
    · next hphase =>
      obtain ⟨rfl, rfl⟩ := Prod.mk.inj (Option.some.inj h)
      exact ⟨.wrote n hphase, .inl rfl⟩
    · next hphase =>
      obtain ⟨rfl, rfl⟩ := Prod.mk.inj (Option.some.inj h)
      exact ⟨.write n hphase, .inl rfl⟩
    · cases h
  | writeFail =>
    simp only [step] at h
    split at h
    · next hphase =>
      obtain ⟨rfl, rfl⟩ := Prod.mk.inj (Option.some.inj h)
      exact ⟨.writeFail (.inl ⟨_, _, hphase⟩), .inl rfl⟩
    · next hphase =>
      obtain ⟨rfl, rfl⟩ := Prod.mk.inj (Option.some.inj h)
      exact ⟨.writeFail (.inr ⟨_, hphase⟩), .inl rfl⟩
    · cases h

/-- A row is the only step that changes the table. -/
theorem table_of_step (h : step stripAaaa table c a = some (c', table'))
    (ha : ∀ now evictNow order, a ≠ .row now evictNow order) : table' = table := by
  rcases (step_cases h).2 with hsame | ⟨now, evictNow, order, hrow⟩
  · exact hsame
  · exact absurd hrow (ha now evictNow order)

theorem step_row {now evictNow : Instant} {order : HashMap.IterOrder IpAddr (String × Instant)}
    (h : step stripAaaa table c (.row now evictNow order) = some (c', table')) :
    ∃ query response ip ips, c.phase = .resolving query response (ip :: ips) ∧
      table' = table.insert order ip (queryName query) (tableTtl response) now evictNow := by
  simp only [step] at h
  split at h
  · next query response ip ips hphase =>
      exact ⟨query, response, ip, ips, hphase, (Prod.mk.inj (Option.some.inj h)).2.symm⟩
  · cases h

end Step

def Phase.query : Phase → Option Bytes
  | .forwarding query => some query
  | .resolving query _ _ => some query
  | _ => none

/-- The query of a connection is one that was read from it. -/
def Connection.Coherent (c : Connection) : Prop := ∀ query, c.phase.query = some query → query ∈ c.queries

theorem coherent_start : start.Coherent := by
  intro query h
  cases h

section Coherent
variable {stripAaaa : Bool} {table table' : DnsTable} {c c' : Connection} {a : Action}

/-- The connection goes on with the queries it had. -/
theorem Connection.Coherent.next (hc : c.Coherent) (hqueries : c'.queries = c.queries)
    (hphase : c'.phase.query = none ∨ c'.phase.query = c.phase.query) :
    c'.Coherent ∧ ∀ query ∈ c.queries, query ∈ c'.queries := by
  rw [Connection.Coherent, hqueries]
  refine ⟨?_, fun query hq => hq⟩
  intro query hquery
  rcases hphase with hnone | hsame
  · rw [hnone] at hquery
    cases hquery
  · exact hc query (hsame ▸ hquery)

theorem Connection.Coherent.gotQuery (c : Connection) (query inbox : Bytes) :
    (gotQuery stripAaaa c query inbox).Coherent ∧
      ∀ q ∈ c.queries, q ∈ (gotQuery stripAaaa c query inbox).queries := by
  dsimp only [Tcp.gotQuery]
  split_ifs
  · cases buildNodata query with
    | none => exact ⟨by simp [Connection.Coherent, Phase.query], fun q hq => List.mem_append_left _ hq⟩
    | some resp =>
      exact ⟨by simp [Connection.Coherent, Phase.query], fun q hq => List.mem_append_left _ hq⟩
  · refine ⟨?_, fun q hq => List.mem_append_left _ hq⟩
    rintro q ⟨⟩
    simp

theorem Connection.Coherent.step (hc : c.Coherent)
    (h : step stripAaaa table c a = some (c', table')) :
    c'.Coherent ∧ ∀ query ∈ c.queries, query ∈ c'.queries := by
  cases (step_cases h).1 with
  | arrive data => exact hc.next rfl (.inr rfl)
  | readLength hphase hinbox =>
    refine hc.next rfl (.inl ?_)
    dsimp only [gotLength]
    split_ifs <;> rfl
  | readQuery hphase hlen => exact Connection.Coherent.gotQuery c _ _
  | readFail hphase => exact hc.next rfl (.inl rfl)
  | respond outcome hphase =>
    cases outcome with
    | none => exact hc.next rfl (.inl rfl)
    | some response =>
      dsimp only [gotResponse]
      split_ifs
      · exact hc.next rfl (.inl rfl)
      · exact hc.next rfl (.inr (by rw [hphase]; rfl))
  | row hphase => exact hc.next rfl (.inr (by rw [hphase]; rfl))
  | writeFirst n hphase => exact hc.next rfl (.inl rfl)
  | wrote n hphase => exact hc.next rfl (.inl rfl)
  | write n hphase => exact hc.next rfl (.inl rfl)
  | writeFail hphase => exact hc.next rfl (.inl rfl)

end Coherent
end TransProxy.Dns.Tcp
