import TransProxy.Dns.DohSent
import TransProxy.Dns.EmptyAnswers
import TransProxy.Dns.Rewriting

/-!
# Where the addresses of a reply come from

A reply goes through the cache or a channel, under another transaction ID and with older
TTLs. The addresses that it resolves stay those of an answer of the DoH server.
-/
namespace TransProxy.Dns

namespace Format
open Library Net

theorem SameFrom.byte {p q : Bytes} {pos : ℕ} (h : SameFrom pos p q) (hp : pos < p.length) :
    ∃ hq : pos < q.length, p[pos] = q[pos] :=
  (h.agreeOn (pos + 1)).byte (Nat.le_refl _) (Nat.lt_succ_self _) hp

theorem SameFrom.queryNameParts_eq {p q : Bytes} {pos : ℕ} (h : SameFrom pos p q)
    (parts : List String) : queryNameParts p pos parts = queryNameParts q pos parts := by
  fun_induction queryNameParts p pos parts with
  | case1 pos parts hend => rw [queryNameParts_end (h.length ▸ hend)]
  | case2 pos parts hin len hzero =>
    obtain ⟨hq, hsame⟩ := h.byte (by omega)
    rw [queryNameParts_zero hq (hsame ▸ hzero)]
  | case3 pos parts hin len hzero hptr =>
    obtain ⟨hq, hsame⟩ := h.byte (by omega)
    rw [queryNameParts_pointer hq (hsame ▸ hzero) (hsame ▸ hptr)]
  | case4 pos parts hin len hzero hptr hshort =>
    obtain ⟨hq, hsame⟩ := h.byte (by omega)
    rw [queryNameParts_short hq (hsame ▸ hzero) (by rw [← hsame, ← h.length]; exact hshort)]
  | case5 pos parts hin len hzero hptr hshort hutf8 =>
    obtain ⟨hq, hsame⟩ := h.byte (by omega)
    have hcut : pos + 1 + q[pos].toNat ≤ q.length := by
      rw [← hsame, ← h.length]
      exact Nat.le_of_not_lt hshort
    have hslice := slice_congr (h.agreeOn (pos + 1 + len.toNat)) (Nat.le_succ pos) (Nat.le_refl _)
    rw [queryNameParts_label hq (hsame ▸ hzero) (hsame ▸ hptr) hcut, ← hsame, ← hslice, hutf8]
  | case6 pos parts hin len hzero hptr hshort label hutf8 ih =>
    obtain ⟨hq, hsame⟩ := h.byte (by omega)
    have hcut : pos + 1 + q[pos].toNat ≤ q.length := by
      rw [← hsame, ← h.length]
      exact Nat.le_of_not_lt hshort
    have hslice := slice_congr (h.agreeOn (pos + 1 + len.toNat)) (Nat.le_succ pos) (Nat.le_refl _)
    rw [queryNameParts_label hq (hsame ▸ hzero) (hsame ▸ hptr) hcut, ← hsame, ← hslice, hutf8]
    exact ih (h.mono (by omega))

/-- The name of a packet does not depend on its header. -/
theorem SameFrom.parseQueryName_eq {p q : Bytes} (h : SameFrom 2 p q) :
    parseQueryName p = parseQueryName q := by
  rw [parseQueryName, parseQueryName, (h.mono (show 2 ≤ 12 by omega)).queryNameParts_eq]

theorem SameFrom.skipQuestions_eq {p q : Bytes} {pos : ℕ} (h : SameFrom pos p q) (n : ℕ) :
    skipQuestions p n pos = skipQuestions q n pos := by
  induction n generalizing pos with
  | zero => rfl
  | succ n ih =>
    rw [skipQuestions, skipQuestions, ← h.skipDnsName_eq]
    cases hname : skipDnsName p pos with
    | none => rfl
    | some e =>
      have hlt := (lt_of_skipDnsName hname).1
      dsimp only
      rw [ih (h.mono (by omega)), h.length]

/-- The transaction ID is not looked at for the addresses. -/
theorem SameFrom.parseIpRecords_eq {p q : Bytes} (h : SameFrom 2 p q) :
    parseIpRecords p = parseIpRecords q := by
  rw [parseIpRecords, parseIpRecords]
  by_cases hshort : p.length < 12
  · rw [dif_pos hshort, dif_pos (h.length ▸ hshort)]
  have hshort' : ¬ q.length < 12 := h.length ▸ hshort
  have hancount : u16At p 6 (by omega) = u16At q 6 (by omega) := h.u16At_eq (by omega) _ _
  have hqdcount : u16At p 4 (by omega) = u16At q 4 (by omega) := h.u16At_eq (by omega) _ _
  simp only [dif_neg hshort, dif_neg hshort', hancount, hqdcount]
  rw [(h.mono (show 2 ≤ 12 by omega)).skipQuestions_eq]
  cases hquestions : skipQuestions q (u16At q 4 (by omega)).toNat 12 with
  | none => rfl
  | some pos =>
    have hpos := (skipQuestions_bounds hquestions).1
    simp only [(h.mono (show 2 ≤ pos by omega)).ipRecords_eq]

theorem sameFrom_of_cacheKey_eq {p q : Bytes} (hp : 2 ≤ p.length) (hq : 2 ≤ q.length)
    (h : cacheKey p = cacheKey q) : SameFrom 2 p q := by
  have hdrop := drop_eq_of_cacheKey_eq hp hq h
  constructor
  · have hlen := congrArg List.length hdrop
    rw [List.length_drop, List.length_drop] at hlen
    omega
  · intro i hi
    have hbyte := congrArg (fun bytes : Bytes => bytes[i - 2]?) hdrop
    simpa only [List.getElem?_drop, Nat.add_sub_cancel' hi] using hbyte

theorem sameFrom_restoreTxId (packet : Bytes) (txId : UInt16) :
    SameFrom 2 (restoreTxId packet txId) packet := by
  rw [restoreTxId]
  split_ifs with hlen
  · have hid : (u16ToBeBytes txId).length = 2 := rfl
    constructor
    · rw [List.length_append, hid, List.length_drop]
      omega
    · intro i hi
      rw [List.getElem?_append_right (by omega), hid, List.getElem?_drop, Nat.add_sub_cancel' hi]
  · exact ⟨rfl, fun _ _ => rfl⟩

theorem parseIpRecords_restoreTxId (packet : Bytes) (txId : UInt16) :
    parseIpRecords (restoreTxId packet txId) = parseIpRecords packet :=
  (sameFrom_restoreTxId packet txId).parseIpRecords_eq

theorem parseIpRecords_served (entry : DnsCacheEntry) (txId : UInt16) (now : Instant) :
    parseIpRecords (entry.served txId now) = parseIpRecords entry.response := by
  dsimp only [DnsCacheEntry.served]
  split_ifs
  · rw [parseIpRecords_rewriteTtls, parseIpRecords_restoreTxId]
  · exact parseIpRecords_restoreTxId _ _

theorem parseIpRecords_servfail {query servfail : Bytes} (h : buildServfail query = some servfail) :
    parseIpRecords servfail = none := by
  rw [buildServfail] at h
  obtain ⟨qs, hqs⟩ := holdsQuestions_of_isSome (Option.isSome_iff_exists.mpr ⟨servfail, h⟩)
  rw [buildEmptyResponse_of_holdsQuestions hqs] at h
  obtain rfl := Option.some.inj h
  exact (answersEmpty_of_holdsQuestions hqs 2).noAddresses

end Format

namespace Doh
open Library Net Format

/-- The addresses that are still to enter the table are among those of the reply, which are
known for the key of the query if there are any. -/
def Delivery.Sourced (known : Bytes → Option (List IpAddr) → Prop) (d : Delivery) : Prop :=
  ∀ ip ∈ d.ips, ip ∈ (parseIpRecords d.reply.data).getD [] ∧
    known d.reply.request.query.key (parseIpRecords d.reply.data)

theorem Delivery.sourced_nil (known : Bytes → Option (List IpAddr) → Prop) (reply : Reply) :
    (⟨reply, []⟩ : Delivery).Sourced known := by
  intro ip hip
  cases hip

theorem sourced_resolve {known : Bytes → Option (List IpAddr) → Prop} {reply : Reply}
    (h : parseIpRecords reply.data = none ∨
      known reply.request.query.key (parseIpRecords reply.data)) : reply.resolve.Sourced known := by
  intro ip hip
  rcases h with hnone | hknown
  · rw [Reply.resolve, hnone] at hip
    cases hip
  · exact ⟨hip, hknown⟩

theorem afterBroadcast_cases (reply : Reply) :
    afterBroadcast reply = .delivering ⟨reply, []⟩ ∨
      afterBroadcast reply = .delivering reply.resolve := by
  unfold afterBroadcast
  split
  · exact .inl rfl
  · exact .inr rfl

structure Sourced (known : Bytes → Option (List IpAddr) → Prop) (s : State) : Prop where
  cache : ∀ (key : Bytes) (e : DnsCacheEntry), AList.lookup key s.cache = some e →
    known key (parseIpRecords e.response)
  answers : ∀ (i : ℕ) (l : Leader) (response : Bytes), s.leaders[i]? = some l →
    l.answer = some (some response) → known l.request.query.key (parseIpRecords response)
  deliveries : ∀ task d, s.delivery task = some d → d.Sourced known

theorem sourced_initial (known : Bytes → Option (List IpAddr) → Prop) (table : DnsTable) :
    Sourced known (initial table) := by
  refine ⟨by simp [initial], by simp [initial], ?_⟩
  intro task d hd
  cases task <;> simp [State.delivery, initial] at hd

section Known
variable {known known' : Bytes → Option (List IpAddr) → Prop} {s t : State}

theorem Sourced.mono (h : Sourced known s) (himp : ∀ key ips, known key ips → known' key ips) :
    Sourced known' s where
  cache key e he := himp _ _ (h.cache key e he)
  answers i l response hl hanswer := himp _ _ (h.answers i l response hl hanswer)
  deliveries task d hd ip hip := ⟨(h.deliveries task d hd ip hip).1,
    himp _ _ (h.deliveries task d hd ip hip).2⟩

theorem Sourced.congr (h : Sourced known s) (hcache : t.cache = s.cache)
    (hclient : t.client = s.client) (hleaders : t.leaders = s.leaders)
    (hfollowers : t.followers = s.followers) : Sourced known t where
  cache := by rw [hcache]; exact h.cache
  answers := by rw [hleaders]; exact h.answers
  deliveries := by
    intro task d hd
    apply h.deliveries task d
    cases task <;> simpa only [State.delivery, hclient, hleaders, hfollowers] using hd

/-- The client loop goes on. -/
theorem Sourced.setClient (h : Sourced known s) (client : ClientTask)
    (hclient : ∀ d, client = .delivering d → d.Sourced known) :
    Sourced known { s with client } where
  cache := h.cache
  answers := h.answers
  deliveries := by
    intro task d hd
    cases task with
    | client => exact hclient d (delivery_client hd)
    | leader i => exact h.deliveries (.leader i) d hd
    | follower j => exact h.deliveries (.follower j) d hd

theorem Sourced.setLeader (h : Sourced known s) (i : ℕ) {l : Leader}
    (hanswer : ∀ response, l.answer = some (some response) →
      known l.request.query.key (parseIpRecords response))
    (hphase : ∀ d, l.phase = .delivering d → d.Sourced known) :
    Sourced known (s.setLeader i l) where
  cache := h.cache
  answers := by
    intro k l' response hl' hresponse
    rcases getElem?_set_cases hl' with ⟨rfl, rfl⟩ | ⟨_, hold⟩
    · exact hanswer response hresponse
    · exact h.answers k l' response hold hresponse
  deliveries := by
    intro task d hd
    cases task with
    | client => exact h.deliveries .client d hd
    | leader k =>
      obtain ⟨request, sent, answer, hl'⟩ := delivery_leader hd
      rcases getElem?_set_cases hl' with ⟨rfl, rfl⟩ | ⟨_, hold⟩
      · exact hphase d rfl
      · exact h.deliveries (.leader k) d (by simp only [State.delivery, hold])
    | follower j => exact h.deliveries (.follower j) d hd

/-- The task of a leader goes on. -/
theorem Sourced.changeLeader (h : Sourced known s) {i : ℕ} {l l' : Leader}
    (hl : s.leaders[i]? = some l) (hrequest : l'.request = l.request)
    (hanswer : l'.answer = l.answer) (hphase : ∀ d, l'.phase = .delivering d → d.Sourced known) :
    Sourced known (s.setLeader i l') := by
  refine h.setLeader i ?_ hphase
  intro response hresponse
  rw [hrequest]
  exact h.answers i l response hl (hanswer ▸ hresponse)

theorem Sourced.setFollower (h : Sourced known s) (j : ℕ) {f : Follower}
    (hphase : ∀ d, f.phase = .delivering d → d.Sourced known) :
    Sourced known (s.setFollower j f) where
  cache := h.cache
  answers := h.answers
  deliveries := by
    intro task d hd
    cases task with
    | client => exact h.deliveries .client d hd
    | leader i => exact h.deliveries (.leader i) d hd
    | follower k =>
      obtain ⟨request, leader, next, hf'⟩ := delivery_follower hd
      rcases getElem?_set_cases hf' with ⟨rfl, rfl⟩ | ⟨_, hold⟩
      · exact hphase d rfl
      · exact h.deliveries (.follower k) d (by simp only [State.delivery, hold])

theorem Sourced.deliver (h : Sourced known s) (task : Task) {d : Option Delivery}
    (hd : ∀ e, d = some e → e.Sourced known) : Sourced known (s.deliver task d) := by
  cases task with
  | client =>
    apply h.setClient
    cases d with
    | none => simp
    | some e =>
      rintro _ ⟨⟩
      exact hd e rfl
  | leader i =>
    cases hl : s.leaders[i]? with
    | none => simpa only [State.deliver, hl] using h
    | some l =>
      simp only [State.deliver, hl]
      refine h.changeLeader hl rfl rfl ?_
      cases d with
      | none => simp
      | some e =>
        rintro _ ⟨⟩
        exact hd e rfl
  | follower j =>
    cases hf : s.followers[j]? with
    | none => simpa only [State.deliver, hf] using h
    | some f =>
      simp only [State.deliver, hf]
      apply h.setFollower j
      cases d with
      | none => simp
      | some e =>
        rintro _ ⟨⟩
        exact hd e rfl

/-- What a leader announces is an answer, or resolves nothing. -/
theorem Sourced.of_announces (h : Sourced known s) {i : ℕ} {l : Leader} {reply : Reply}
    (hl : s.leaders[i]? = some l) (hannounces : l.Announces reply) :
    parseIpRecords reply.data = none ∨
      known l.request.query.key (parseIpRecords reply.data) := by
  rcases hannounces.2 with ⟨_, hanswer⟩ | ⟨_, _, hservfail⟩
  · exact .inr (h.answers i l reply.data hl hanswer)
  · exact .inl (parseIpRecords_servfail hservfail)

theorem sourced_receiveDatagram (h : Sourced known s) (stripAaaa : Bool) (addr : SocketAddr)
    (packet : Bytes) : Sourced known (receiveDatagram stripAaaa s addr packet) := by
  dsimp only [receiveDatagram]
  split_ifs
  · exact h
  · cases buildNodata packet with
    | none => exact h.congr rfl rfl rfl rfl
    | some resp =>
      refine (h.setClient (.delivering ⟨_, []⟩) ?_).congr rfl rfl rfl rfl
      rintro _ ⟨⟩
      exact Delivery.sourced_nil known _
  · exact (h.setClient (.lookingUp _) (by simp)).congr rfl rfl rfl rfl

/-- A cached reply has the addresses of its entry. -/
theorem sourced_lookUp (h : Sourced known s) (request : Request) (now agedNow : Instant) :
    Sourced known (lookUp s request now agedNow) := by
  obtain ⟨_, heq⟩ | ⟨cached, hget, heq⟩ := lookUp_cases s request now agedNow
  · rw [heq]
    exact h.setClient _ (by simp)
  · rw [heq]
    refine (h.setClient (.delivering (Reply.resolve ⟨request, .cached, cached⟩)) ?_).congr
      rfl rfl rfl rfl
    rintro _ ⟨⟩
    obtain ⟨e, he, _, rfl⟩ := DnsCache.get_eq_some_iff.mp hget
    refine sourced_resolve (.inr ?_)
    rw [parseIpRecords_served]
    exact h.cache _ e he

theorem sourced_tryJoin (h : Sourced known s) (request : Request) :
    Sourced known (tryJoin s request) := by
  obtain ⟨_, heq⟩ | ⟨i, _, heq⟩ := tryJoin_cases s request
  · rw [heq]
    exact h.setClient _ (by simp)
  · rw [heq]
    have hclient := h.setClient .receiving (by simp)
    refine ⟨hclient.cache, hclient.answers, ?_⟩
    intro task d hd
    cases task with
    | client => exact hclient.deliveries .client d hd
    | leader k => exact hclient.deliveries (.leader k) d hd
    | follower k =>
      obtain ⟨request', leader, next, hf⟩ := delivery_follower hd
      rcases getElem?_snoc_cases hf with hold | ⟨_, hnew⟩
      · exact hclient.deliveries (.follower k) d (by simp only [State.delivery, hold])
      · cases hnew

theorem sourced_register (h : Sourced known s) (request : Request) :
    Sourced known (register s request) := by
  have hclient := h.setClient .receiving (by simp)
  refine ⟨hclient.cache, ?_, ?_⟩
  · intro k l response hl hresponse
    rcases getElem?_snoc_cases hl with hold | ⟨_, rfl⟩
    · exact h.answers k l response hold hresponse
    · cases hresponse
  · intro task d hd
    cases task with
    | client => exact hclient.deliveries .client d hd
    | leader k =>
      obtain ⟨request', sent, answer, hl⟩ := delivery_leader hd
      rcases getElem?_snoc_cases hl with hold | ⟨_, hnew⟩
      · exact hclient.deliveries (.leader k) d (by simp only [State.delivery, hold])
      · cases hnew
    | follower k => exact hclient.deliveries (.follower k) d hd

theorem sourced_respond (h : Sourced known s) {i : ℕ} {request : Request} {outcome : Outcome}
    {sent : List Bytes}
    (hknown : ∀ response, outcome = some response →
      known request.query.key (parseIpRecords response)) :
    Sourced known (s.setLeader i ⟨request, afterAnswer outcome, sent, some outcome⟩) := by
  apply h.setLeader i
  · intro response hresponse
    exact hknown response (Option.some.inj hresponse)
  · intro d hd
    cases outcome with
    | none => cases hd
    | some response =>
      dsimp only [afterAnswer] at hd
      split_ifs at hd

/-- What is stored is the answer of a leader. -/
theorem sourced_put (hs : Inv s) (h : Sourced known s) {i : ℕ} {request : Request}
    {response : Bytes} {sent : List Bytes} {answer : Option Outcome}
    (hl : s.leaders[i]? = some ⟨request, .storing response, sent, answer⟩) (order : CacheOrder)
    (now : Instant) (clock : Bytes → Instant) (stored : List Stored) :
    Sourced known { s.setLeader i ⟨request, .completing (some response), sent, answer⟩ with
      cache := s.cache.put order request.query.key response now clock
      stored } := by
  obtain ⟨_, hanswer, _⟩ := (hs.leader i _ hl).2
  have hset : Sourced known
      (s.setLeader i ⟨request, .completing (some response), sent, answer⟩) :=
    h.changeLeader hl rfl rfl (by simp)
  refine ⟨?_, hset.answers, fun task d hd => hset.deliveries task d (by cases task <;> exact hd)⟩
  intro key e he
  rcases DnsCache.lookup_put order s.cache _ _ _ _ he with ⟨rfl, rfl⟩ | hold
  · exact h.answers i _ response hl hanswer
  · exact h.cache key e hold

theorem sourced_complete (h : Sourced known s) {i : ℕ} {request : Request} {outcome : Outcome}
    {sent : List Bytes} {answer : Option Outcome}
    (hl : s.leaders[i]? = some ⟨request, .completing outcome, sent, answer⟩) :
    Sourced known (s.setLeader i ⟨request, afterComplete request outcome, sent, answer⟩) := by
  refine h.changeLeader hl rfl rfl ?_
  intro d hd
  cases outcome with
  | some response => cases hd
  | none =>
    dsimp only [afterComplete] at hd
    cases hservfail : buildServfail request.query.packet <;> simp [hservfail] at hd

theorem sourced_broadcast (hs : Inv s) (h : Sourced known s) {i : ℕ} {request : Request}
    {reply : Reply} {sent sent' : List Bytes} {answer : Option Outcome}
    (hl : s.leaders[i]? = some ⟨request, .broadcasting reply, sent, answer⟩) :
    Sourced known (s.setLeader i ⟨request, afterBroadcast reply, sent', answer⟩) := by
  have hannounces := (hs.leader i _ hl).2.2
  have hrequest : reply.request = request := hannounces.1
  refine h.changeLeader hl rfl rfl ?_
  intro d hd
  rcases afterBroadcast_cases reply with heq | heq <;> rw [heq] at hd <;>
    obtain rfl := LeaderPhase.delivering.inj hd
  · exact Delivery.sourced_nil known reply
  · exact sourced_resolve (hrequest ▸ h.of_announces hl hannounces)

/-- What a follower hears is what its leader announced. -/
theorem sourced_receive (hs : Inv s) (h : Sourced known s) {j : ℕ} {f : Follower} {l : Leader}
    {data : Bytes} (hf : s.followers[j]? = some f) (hl : s.leaders[f.leader]? = some l)
    (hdata : recv l.sent (l.isOpen s.inFlight f.leader) f.next = .message data) :
    Sourced known (s.setFollower j { f with phase := .delivering (Reply.resolve
      ⟨f.request, .coalesced, restoreTxId data f.request.query.txId⟩) }) := by
  apply h.setFollower j
  rintro _ ⟨⟩
  apply sourced_resolve
  obtain ⟨_, l', hl', hcoherent⟩ := hs.follower j f hf
  obtain rfl := Option.some.inj (hl.symm.trans hl')
  dsimp only
  rw [parseIpRecords_restoreTxId, hcoherent.key]
  rw [hcoherent.next] at hdata
  obtain ⟨data', hsent, hrecv⟩ | ⟨_, ⟨hrecv, _⟩ | ⟨hrecv, _⟩⟩ :=
    recv_cases s.inFlight f.leader (hs.leader _ l hl).2
  · rw [hrecv] at hdata
    obtain rfl := Recv.message.inj hdata
    obtain ⟨reply, rfl, hannounces⟩ := (hs.leader _ l hl).2.announces hsent
    exact h.of_announces hl hannounces
  · rw [hrecv] at hdata
    cases hdata
  · rw [hrecv] at hdata
    cases hdata

theorem sourced_row (h : Sourced known s) {task : Task} {reply : Reply} {ip : IpAddr}
    {ips : List IpAddr} (hd : s.delivery task = some ⟨reply, ip :: ips⟩) :
    Sourced known (s.deliver task (some ⟨reply, ips⟩)) := by
  apply h.deliver task
  rintro _ ⟨⟩ ip' hip'
  exact h.deliveries task _ hd ip' (List.mem_cons_of_mem ip hip')

/-- A step keeps to known addresses if an answer that comes in has such. -/
theorem Sourced.step {stripAaaa : Bool} {a : Action} (hs : Inv s) (h : Sourced known s)
    (hstep : step stripAaaa s a = some t)
    (hknown : ∀ (i : ℕ) (l : Leader) (response : Bytes), a = .respond i (some response) →
      s.leaders[i]? = some l → known l.request.query.key (parseIpRecords response)) :
    Sourced known t := by
  cases a with
  | datagram addr packet =>
    obtain ⟨_, rfl⟩ := step_datagram hstep
    exact sourced_receiveDatagram h stripAaaa addr packet
  | clientError =>
    obtain rfl := step_clientError hstep
    exact h.setClient .stopped (by simp)
  | lookup now agedNow =>
    obtain ⟨request, _, rfl⟩ := step_lookup hstep
    exact sourced_lookUp h request now agedNow
  | join =>
    obtain ⟨request, _, rfl⟩ := step_join hstep
    exact sourced_tryJoin h request
  | register =>
    obtain ⟨request, _, rfl⟩ := step_register hstep
    exact sourced_register h request
  | respond i outcome =>
    obtain ⟨request, sent, answer, hl, rfl⟩ := step_respond hstep
    apply sourced_respond h
    rintro response rfl
    exact hknown i _ response rfl hl
  | put i now clock order =>
    obtain ⟨request, response, sent, answer, hl, rfl⟩ := step_put hstep
    exact sourced_put hs h hl order now clock _
  | complete i =>
    obtain ⟨request, outcome, sent, answer, hl, rfl⟩ := step_complete hstep
    exact (sourced_complete h hl).congr rfl rfl rfl rfl
  | broadcast i =>
    obtain ⟨request, reply, sent, answer, hl, rfl⟩ := step_broadcast hstep
    exact sourced_broadcast hs h hl
  | receive j =>
    obtain ⟨f, l, hf, _, hl, ⟨data, hdata, rfl⟩ | ⟨_, _, rfl⟩⟩ := step_receive hstep
    · exact sourced_receive hs h hf hl hdata
    · exact h.setFollower j (by simp)
  | row task now evictNow order =>
    obtain ⟨reply, ip, ips, hd, rfl⟩ := step_row hstep
    exact (sourced_row h hd).congr rfl rfl rfl rfl
  | send task ok =>
    obtain ⟨reply, _, rfl⟩ := step_send hstep
    exact (h.deliver task (d := none) (by simp)).congr rfl rfl rfl rfl

end Known
end Doh
end TransProxy.Dns
