import TransProxy.Dns.DohSafety
import TransProxy.Dns.Tcp
import TransProxy.Dns.Udp

/-!
# Which queries are stripped

The type that the listeners look at is the one behind the first name, however many
questions there are. With stripping on, every packet that they go on to work on is of another type.
-/
namespace TransProxy.Dns
open Library Net

/-- The types of the questions that the header counts, as far as they are there. -/
def readTypes (packet : Bytes) : ℕ → ℕ → List UInt16
  | 0, _ => []
  | n + 1, pos =>
    match skipDnsName packet pos with
    | none => []
    | some pos =>
      if h : packet.length < pos + 4 then []
      else u16At packet pos (by omega) :: readTypes packet n (pos + 4)

def questionTypes (packet : Bytes) : List UInt16 := readTypes packet (qdcount packet) 12

/-- The two bytes behind the name at the place of the first question. -/
def firstType (packet : Bytes) : Option UInt16 :=
  match skipDnsName packet 12 with
  | none => none
  | some pos => if h : packet.length < pos + 2 then none else some (u16At packet pos (u16_inBounds h))

theorem parseQueryType_eq_firstType (packet : Bytes) : parseQueryType packet = firstType packet := by
  rw [firstType]
  cases hname : skipDnsName packet 12 with
  | some pos => exact parseQueryType_eq hname
  | none =>
    rw [parseQueryType, queryTypePos_eq_skipDnsName, hname]
    exact ite_self none

theorem questionTypes_of_short {packet : Bytes} (h : packet.length < 12) :
    questionTypes packet = [] := by
  rw [questionTypes, qdcount, dif_pos h]
  rfl

/-- The identifier does not matter for the type. -/
theorem parseQueryType_eq_of_drop {p q : Bytes} (hp : 2 ≤ p.length) (hq : 2 ≤ q.length)
    (h : p.drop 2 = q.drop 2) : parseQueryType p = parseQueryType q := by
  have hlen : p.length = q.length := by
    have := congrArg List.length h
    rw [List.length_drop, List.length_drop] at this
    omega
  have hag : ∀ hi, AgreeOn 12 hi p q := by
    intro hi i hlo _
    have hbyte := congrArg (fun bytes : Bytes => bytes[i - 2]?) h
    simpa only [List.getElem?_drop, show 2 + (i - 2) = i by omega] using hbyte
  cases hname : skipDnsName p 12 with
  | some e =>
    rw [parseQueryType_eq hname,
      parseQueryType_eq (skipDnsName_congr (hag e) (Nat.le_refl _) (Nat.le_refl _) hname)]
    by_cases hend : p.length < e + 2
    · rw [dif_pos hend, dif_pos (hlen ▸ hend)]
    · rw [dif_neg hend, dif_neg (hlen ▸ hend)]
      have hlt := lt_of_skipDnsName hname
      exact congrArg some (u16At_congr (hag (e + 2)) (by omega) (Nat.le_refl _) (by omega) (by omega))
  | none =>
    have hname' : skipDnsName q 12 = none := by
      rw [Option.eq_none_iff_forall_ne_some]
      intro e hsome
      have hback := skipDnsName_congr (hag e).symm (Nat.le_refl _) (Nat.le_refl _) hsome
      rw [hname] at hback
      cases hback
    rw [parseQueryType_eq_firstType, parseQueryType_eq_firstType, firstType, firstType, hname, hname']

def Passes (packet : Bytes) : Prop := parseQueryType packet ≠ some dnsTypeAaaa

namespace Udp
variable {s t : State} {a : Action} {packet sent : Bytes}

structure State.Passing (s : State) : Prop where
  pending : ∀ q ∈ s.queries, Passes q.packet
  forwarding : ∀ sent, s.client = .forwarding sent → Passes sent

theorem passing_initial (table : DnsTable) : (initial table).Passing := by
  constructor <;> simp [initial]

theorem clientReceive_eq_of_passes (h : Passes packet) (s : State) (addr : SocketAddr)
    (created now : Instant) (order : PendingOrder) (draws : ℕ → UInt16) :
    clientReceive true s addr packet created now order draws =
      clientReceive false s addr packet created now order draws := by
  have htype : (parseQueryType packet).getD 0 ≠ dnsTypeAaaa := by
    cases hparse : parseQueryType packet with
    | none => decide
    | some qtype =>
      intro hsame
      exact h (hparse.trans (congrArg some hsame))
  simp only [clientReceive, htype, and_false]

/-- A query that goes upstream was not stripped. -/
theorem passes_of_clientReceive (s : State) (addr : SocketAddr) (packet : Bytes)
    (created now : Instant) (order : PendingOrder) (draws : ℕ → UInt16)
    (h : (clientReceive true s addr packet created now order draws).queries ≠ s.queries) :
    Passes packet := by
  intro htype
  apply h
  rw [clientReceive]
  by_cases hlen : packet.length < 12
  · rw [dif_pos hlen]
  · simp only [hlen, dif_neg, not_false_eq_true, htype, Option.getD_some, and_self, if_true]
    cases buildNodata packet <;> rfl

/-- A rewritten identifier does not change the type. -/
theorem parseQueryType_setTxId (packet : Bytes) (id : UInt16) (h : 2 ≤ packet.length) :
    parseQueryType (setTxId packet id) = parseQueryType packet := by
  apply parseQueryType_eq_of_drop
  · simp [setTxId, u16ToBeBytes]
  · exact h
  · simp [setTxId, u16ToBeBytes]

theorem State.Passing.clientReceive (hs : s.Passing) (addr : SocketAddr) (packet : Bytes)
    (created now : Instant) (order : PendingOrder) (draws : ℕ → UInt16) :
    (clientReceive true s addr packet created now order draws).Passing := by
  rcases clientReceive_cases true s addr packet created now order draws with
    ⟨out, heq⟩ | heq | ⟨entry, id, hrecords, _, heq⟩
  · rw [heq]
    exact ⟨hs.pending, hs.forwarding⟩
  · rw [heq]
    exact ⟨hs.pending, hs.forwarding⟩
  · have hpasses : Passes packet := by
      apply passes_of_clientReceive s addr packet created now order draws
      simp [heq, State.enqueue, State.purge]
    rw [heq]
    constructor
    · exact List.forall_mem_append.mpr ⟨hs.pending, List.forall_mem_singleton.mpr hpasses⟩
    · rintro _ ⟨⟩
      have hlen : 12 ≤ packet.length := hrecords.1
      rw [Passes, parseQueryType_setTxId packet id (by omega)]
      exact hpasses

/-- The reader has no part in it. -/
theorem State.Passing.congr (hs : s.Passing) (hqueries : t.queries = s.queries)
    (hclient : t.client = s.client ∨ ∀ sent, t.client ≠ .forwarding sent) : t.Passing := by
  constructor
  · rw [hqueries]
    exact hs.pending
  · intro sent hsent
    rcases hclient with hsame | hnone
    · exact hs.forwarding sent (hsame ▸ hsent)
    · exact absurd hsent (hnone sent)

theorem State.Passing.step (hs : s.Passing) (h : step true s a = some t) : t.Passing := by
  cases a with
  | clientDatagram addr packet created now order draws =>
    obtain ⟨_, rfl⟩ := step_clientDatagram h
    exact hs.clientReceive addr packet created now order draws
  | clientError =>
    rw [step_clientError h]
    exact hs.congr rfl (.inr (by simp))
  | forward ok =>
    obtain ⟨sent, rfl⟩ := step_forward h
    exact hs.congr rfl (.inr (by simp))
  | upstreamDatagram datagram =>
    obtain ⟨_, rfl⟩ := step_upstreamDatagram h
    obtain ⟨_, h⟩ | ⟨_, _, _, _, _, h⟩ := readerReceive_cases s datagram
    · rw [h]
      exact hs
    · rw [h]
      exact hs.congr rfl (.inl rfl)
  | insertRow now evictNow order =>
    obtain ⟨_, _, _, _, _, rfl⟩ := step_insertRow h
    exact hs.congr rfl (.inl rfl)
  | reply ok =>
    obtain ⟨_, _, rfl⟩ := step_reply h
    exact hs.congr rfl (.inl rfl)

end Udp

namespace Doh
variable {s t : State} {a : Action} {packet : Bytes}

/-- The client loop works on the packet, or delivers addresses for it. -/
def ClientTask.Seeks (packet : Bytes) : ClientTask → Prop
  | .lookingUp request => request.query.packet = packet
  | .joining request => request.query.packet = packet
  | .registering request => request.query.packet = packet
  | .delivering d => d.ips ≠ [] ∧ d.reply.request.query.packet = packet
  | _ => False

structure State.Passing (s : State) : Prop where
  client : ∀ packet, s.client.Seeks packet → Passes packet
  leader : ∀ l ∈ s.leaders, Passes l.request.query.packet
  follower : ∀ f ∈ s.followers, Passes f.request.query.packet

theorem passing_initial (table : DnsTable) : (initial table).Passing := by
  constructor <;> simp [initial, ClientTask.Seeks]

theorem State.Passing.setClient (hs : s.Passing) (c : ClientTask)
    (hc : ∀ packet, c.Seeks packet → Passes packet) : State.Passing { s with client := c } :=
  ⟨hc, hs.leader, hs.follower⟩

theorem State.Passing.setLeader (hs : s.Passing) {i : ℕ} {l l' : Leader}
    (hl : s.leaders[i]? = some l) (hrequest : l'.request = l.request) :
    (s.setLeader i l').Passing := by
  refine ⟨hs.client, forall_mem_set ?_ hs.leader, hs.follower⟩
  rw [hrequest]
  exact hs.leader l (List.mem_of_getElem? hl)

theorem State.Passing.setFollower (hs : s.Passing) {j : ℕ} {f f' : Follower}
    (hf : s.followers[j]? = some f) (hrequest : f'.request = f.request) :
    (s.setFollower j f').Passing := by
  refine ⟨hs.client, hs.leader, forall_mem_set ?_ hs.follower⟩
  rw [hrequest]
  exact hs.follower f (List.mem_of_getElem? hf)

/-- The tasks do not depend on the rest. -/
theorem State.Passing.congr (hs : s.Passing) (hclient : t.client = s.client)
    (hleaders : t.leaders = s.leaders) (hfollowers : t.followers = s.followers) : t.Passing :=
  ⟨hclient ▸ hs.client, hleaders ▸ hs.leader, hfollowers ▸ hs.follower⟩

theorem receiveDatagram_eq_of_passes (h : Passes packet) (s : State) (addr : SocketAddr) :
    receiveDatagram true s addr packet = receiveDatagram false s addr packet := by
  have htype : parseQueryType packet ≠ some dnsTypeAaaa := h
  simp only [receiveDatagram, htype, and_false]

/-- A packet that is stripped is not looked up. -/
theorem receiveDatagram_ne (h : ¬ Passes packet) (hclient : s.client = .receiving)
    (hlen : 12 ≤ packet.length) (addr : SocketAddr) :
    receiveDatagram true s addr packet ≠ receiveDatagram false s addr packet := by
  have htype : parseQueryType packet = some dnsTypeAaaa := not_not.mp h
  intro hsame
  have hclients := congrArg State.client hsame
  cases hresp : buildNodata packet <;>
    simp [receiveDatagram, Nat.not_lt.mpr hlen, htype, hresp, hclient] at hclients

theorem State.Passing.receiveDatagram (hs : s.Passing) (addr : SocketAddr) (packet : Bytes) :
    (receiveDatagram true s addr packet).Passing := by
  dsimp only [Doh.receiveDatagram]
  split_ifs with hlen hstrip
  · exact hs
  · cases buildNodata packet with
    | none => exact hs.congr rfl rfl rfl
    | some resp => exact ⟨by simp [ClientTask.Seeks], hs.leader, hs.follower⟩
  · refine ⟨?_, hs.leader, hs.follower⟩
    rintro _ rfl htype
    exact hstrip ⟨rfl, htype⟩

theorem State.Passing.deliver (hs : s.Passing) {task : Task} {reply : Reply} {ips ips' : List IpAddr}
    (hd : s.delivery task = some ⟨reply, ips⟩) (hips : ips' ≠ [] → ips ≠ []) :
    (s.deliver task (some ⟨reply, ips'⟩)).Passing := by
  cases task with
  | client =>
    apply hs.setClient
    rintro packet ⟨hne, hpacket⟩
    apply hs.client packet
    rw [delivery_client hd]
    exact ⟨hips hne, hpacket⟩
  | leader i =>
    obtain ⟨request, sent, answer, hl⟩ := delivery_leader hd
    simp only [State.deliver, hl]
    exact hs.setLeader hl rfl
  | follower j =>
    obtain ⟨request, leader, next, hf⟩ := delivery_follower hd
    simp only [State.deliver, hf]
    exact hs.setFollower hf rfl

theorem State.Passing.done (hs : s.Passing) {task : Task} {d : Delivery}
    (hd : s.delivery task = some d) : (s.deliver task none).Passing := by
  cases task with
  | client => exact hs.setClient .receiving (by simp [ClientTask.Seeks])
  | leader i =>
    obtain ⟨request, sent, answer, hl⟩ := delivery_leader hd
    simp only [State.deliver, hl]
    exact hs.setLeader hl rfl
  | follower j =>
    obtain ⟨request, leader, next, hf⟩ := delivery_follower hd
    simp only [State.deliver, hf]
    exact hs.setFollower hf rfl

theorem State.Passing.step (hs : s.Passing) (h : step true s a = some t) : t.Passing := by
  cases a with
  | datagram addr packet =>
    obtain ⟨_, rfl⟩ := step_datagram h
    exact hs.receiveDatagram addr packet
  | clientError =>
    rw [step_clientError h]
    exact hs.setClient .stopped (by simp [ClientTask.Seeks])
  | lookup now agedNow =>
    obtain ⟨request, hclient, rfl⟩ := step_lookup h
    have hpasses : Passes request.query.packet := hs.client _ (by rw [hclient]; rfl)
    obtain ⟨_, h⟩ | ⟨cached, _, h⟩ := lookUp_cases s request now agedNow
    · rw [h]
      exact hs.setClient (.joining request) (by rintro _ rfl; exact hpasses)
    · rw [h]
      refine ⟨?_, hs.leader, hs.follower⟩
      rintro _ ⟨_, rfl⟩
      exact hpasses
  | join =>
    obtain ⟨request, hclient, rfl⟩ := step_join h
    have hpasses : Passes request.query.packet := hs.client _ (by rw [hclient]; rfl)
    obtain ⟨_, h⟩ | ⟨i, _, h⟩ := tryJoin_cases s request
    · rw [h]
      exact hs.setClient (.registering request) (by rintro _ rfl; exact hpasses)
    · rw [h]
      exact ⟨by simp [ClientTask.Seeks], hs.leader,
        List.forall_mem_append.mpr ⟨hs.follower, List.forall_mem_singleton.mpr hpasses⟩⟩
  | register =>
    obtain ⟨request, hclient, rfl⟩ := step_register h
    have hpasses : Passes request.query.packet := hs.client _ (by rw [hclient]; rfl)
    exact ⟨by simp [Doh.register, ClientTask.Seeks],
      List.forall_mem_append.mpr ⟨hs.leader, List.forall_mem_singleton.mpr hpasses⟩, hs.follower⟩
  | respond i outcome =>
    obtain ⟨request, sent, answer, hl, rfl⟩ := step_respond h
    exact hs.setLeader hl rfl
  | put i now clock order =>
    obtain ⟨request, response, sent, answer, hl, rfl⟩ := step_put h
    have hleader : (s.setLeader i ⟨request, .completing (some response), sent, answer⟩).Passing :=
      hs.setLeader hl rfl
    exact hleader.congr rfl rfl rfl
  | complete i =>
    obtain ⟨request, outcome, sent, answer, hl, rfl⟩ := step_complete h
    have hleader : (s.setLeader i ⟨request, afterComplete request outcome, sent, answer⟩).Passing :=
      hs.setLeader hl rfl
    exact hleader.congr rfl rfl rfl
  | broadcast i =>
    obtain ⟨request, reply, sent, answer, hl, rfl⟩ := step_broadcast h
    exact hs.setLeader hl rfl
  | receive j =>
    obtain ⟨f, l, hf, _, _, ⟨data, _, rfl⟩ | ⟨_, _, rfl⟩⟩ := step_receive h
    · exact hs.setFollower hf rfl
    · exact hs.setFollower hf rfl
  | row task now evictNow order =>
    obtain ⟨reply, ip, ips, hd, rfl⟩ := step_row h
    exact State.Passing.congr (hs.deliver hd (by simp)) rfl rfl rfl
  | send task ok =>
    obtain ⟨reply, hd, rfl⟩ := step_send h
    exact State.Passing.congr (hs.done hd) rfl rfl rfl

/-- Rows are inserted for packets that pass. -/
theorem State.Passing.delivery (hs : s.Passing) (hinv : Inv s) {task : Task} {d : Delivery}
    (hd : s.delivery task = some d) (hips : d.ips ≠ []) : Passes d.reply.request.query.packet := by
  cases task with
  | client =>
    apply hs.client
    rw [delivery_client hd]
    exact ⟨hips, rfl⟩
  | leader i =>
    obtain ⟨request, sent, answer, hl⟩ := delivery_leader hd
    obtain ⟨_, _, hrequest, _⟩ := hinv.leader i _ hl
    rw [hrequest]
    exact hs.leader _ (List.mem_of_getElem? hl)
  | follower j =>
    obtain ⟨request, leader, next, hf⟩ := delivery_follower hd
    obtain ⟨_, l, _, hcoherent⟩ := hinv.follower j _ hf
    obtain ⟨hrequest, _⟩ := hcoherent.phase
    rw [hrequest]
    exact hs.follower _ (List.mem_of_getElem? hf)

end Doh

namespace Tcp
variable {c c' : Connection} {a : Action}

def Connection.Passing (c : Connection) : Prop :=
  ∀ query, c.phase.query = some query → Passes query

theorem passing_start : start.Passing := by
  rintro query ⟨⟩

theorem gotQuery_eq_of_passes {query : Bytes} (h : Passes query) (c : Connection) (inbox : Bytes) :
    gotQuery true c query inbox = gotQuery false c query inbox := by
  have htype : parseQueryType query ≠ some dnsTypeAaaa := h
  simp only [gotQuery, htype, and_false]

theorem Connection.Passing.step (hc : c.Passing) {table table' : DnsTable}
    (h : step true table c a = some (c', table')) : c'.Passing := by
  cases (step_cases h).1 with
  | arrive data => exact hc
  | readLength hphase hinbox =>
    dsimp only [gotLength]
    split_ifs
    · rintro query ⟨⟩
    · rintro query ⟨⟩
  | readQuery hphase hlen =>
    dsimp only [gotQuery]
    split_ifs with hstrip
    · cases buildNodata _ with
      | none => rintro query ⟨⟩
      | some resp => rintro query ⟨⟩
    · rintro query ⟨⟩ htype
      exact hstrip ⟨rfl, htype⟩
  | readFail hphase => rintro query ⟨⟩
  | respond outcome hphase =>
    cases outcome with
    | none => rintro query ⟨⟩
    | some response =>
      dsimp only [gotResponse]
      split_ifs
      · rintro query ⟨⟩
      · rintro query ⟨⟩
        exact hc _ (by rw [hphase]; rfl)
  | row hphase =>
    rintro query ⟨⟩
    exact hc _ (by rw [hphase]; rfl)
  | writeFirst n hphase => rintro query ⟨⟩
  | wrote n hphase => rintro query ⟨⟩
  | write n hphase => rintro query ⟨⟩
  | writeFail hphase => rintro query ⟨⟩

end Tcp
end TransProxy.Dns
