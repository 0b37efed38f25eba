import TransProxy.Dns.DohSent

/-!
# What the cache of the DoH forwarder serves

Every entry of the cache was stored by a completion task, from what the DoH server
returned to it. Clock readings are arbitrary.
-/
namespace TransProxy.Dns.Doh
open Library Net

/-- A hit of the query at these readings: the response to an earlier query that differs in
its first two bytes at most, served with the ID of this query and its age taken off. -/
def State.ServesAnswer (s : State) (acts : List Action) (request : Request)
    (now agedNow : Instant) (data : Bytes) : Prop :=
  ∃ (i : ℕ) (l : Leader) (response : Bytes) (time : Instant) (clock : Bytes → Instant)
      (order : CacheOrder),
    s.leaders[i]? = some l ∧ Action.respond i (some response) ∈ acts ∧
      Action.put i time clock order ∈ acts ∧ l.request.number < request.number ∧
        l.request.query.packet.drop 2 = request.query.packet.drop 2 ∧
          now < time + fromSecs (max 30 (min 3600 ((extractMinTtl response).getD 30).toNat)) ∧
            data =
              let resp := request.query.packet.take 2 ++ response.drop 2
              let secs := (agedNow - time) / fromSecs 1
              if 0 < secs then (rewriteTtls resp (UInt32.ofNat (min secs u32Max.toNat))).1 else resp

theorem Grows.servesAnswer {s t : State} (h : Grows s t) {acts : List Action} (a : Action)
    {request : Request} {now agedNow : Instant} {data : Bytes}
    (hserves : s.ServesAnswer acts request now agedNow data) :
    t.ServesAnswer (acts ++ [a]) request now agedNow data := by
  obtain ⟨i, l, response, time, clock, order, hl, hrespond, hput, hearlier, hdrop, hrest⟩ := hserves
  obtain ⟨l', hl', hrequest, _⟩ := h.leader i l hl
  rw [← hrequest] at hearlier hdrop
  exact ⟨i, l', response, time, clock, order, hl', List.mem_append_left _ hrespond,
    List.mem_append_left _ hput, hearlier, hdrop, hrest⟩

/-- Where the entries of the cache come from, in a run with these actions. -/
structure CacheInv (acts : List Action) (s : State) : Prop where
  len : HashMap.len s.cache ≤ maxCacheEntries
  entry : ∀ (key : Bytes) (e : DnsCacheEntry), AList.lookup key s.cache = some e →
    ∃ st ∈ s.stored, st.request.query.key = key ∧
      e = ⟨st.response, st.time, st.time + fromSecs (cacheTtl st.response).toNat⟩
  stored : ∀ st ∈ s.stored, 2 ≤ st.response.length ∧
    ∃ (i : ℕ) (l : Leader) (clock : Bytes → Instant) (order : CacheOrder),
      s.leaders[i]? = some l ∧ l.request = st.request ∧ l.answer = some (some st.response) ∧
        Action.put i st.time clock order ∈ acts
  hit : ∀ h ∈ s.hits, s.ServesAnswer acts h.request h.now h.agedNow h.data

theorem cacheInv_initial (table : DnsTable) : CacheInv [] (initial table) := by
  constructor
  · exact Nat.zero_le _
  · simp [initial]
  · simp [initial]
  · simp [initial]

theorem elapsedSecs_pos_iff (inserted now : Instant) :
    0 < elapsedSecs inserted now ↔ 0 < (now - inserted) / fromSecs 1 := by
  have hmax : u32Max.toNat = 4294967295 := rfl
  have hzero : (0 : UInt32).toNat = 0 := rfl
  have hlt : min ((now - inserted) / fromSecs 1) u32Max.toNat < 2 ^ 32 :=
    lt_of_le_of_lt (min_le_right _ _) (by rw [hmax]; decide)
  rw [elapsedSecs, UInt32.lt_iff_toNat_lt, UInt32.toNat_ofNat', Nat.mod_eq_of_lt hlt, hzero,
    lt_min_iff]
  exact and_iff_left (by rw [hmax]; decide)

section Run
variable {stripAaaa : Bool} {table : DnsTable} {acts : List Action} {s t : State}

/-- A hit in a reachable state. -/
theorem CacheInv.servesAnswer (hrun : (system stripAaaa table).run acts = some s)
    (h : CacheInv acts s) {request : Request} {now agedNow : Instant} {data : Bytes}
    (hclient : s.client = .lookingUp request)
    (hget : s.cache.get request.query.key request.query.txId now agedNow = some data) :
    s.ServesAnswer acts request now agedNow data := by
  have hs := inv_of_run hrun
  have hrequest : s.client.request = some request := by rw [hclient]; rfl
  obtain ⟨e, he, hexpires, hserved⟩ := DnsCache.get_eq_some_iff.mp hget
  obtain ⟨st, hst, hkey, rfl⟩ := h.entry _ e he
  obtain ⟨hlen, i, l, clock, order, hl, hleader, hanswer, hput⟩ := h.stored st hst
  have hrespond := (respond_mem_iff hrun i _).mpr ⟨l, hl, hanswer⟩
  have hnumber : l.request.number < request.number := by
    have hlt := hs.number_lt (mem_numbers_of_leader hl)
    have hlast := (hs.client request hrequest).2
    have hne : request.number ≠ l.request.number := by
      intro heq
      exact hs.fresh request hrequest (heq ▸ mem_numbers_of_leader hl)
    omega
  have hdrop : l.request.query.packet.drop 2 = request.query.packet.drop 2 := by
    have hlen₁ := l.request.query.hlen
    have hlen₂ := request.query.hlen
    rw [← hleader] at hkey
    exact drop_eq_of_cacheKey_eq (by omega) (by omega) hkey
  have hresp : restoreTxId st.response request.query.txId =
      request.query.packet.take 2 ++ st.response.drop 2 := by
    rw [restoreTxId, if_pos hlen, Query.txId, u16ToBeBytes_u16At_zero]
  refine ⟨i, l, st.response, st.time, clock, order, hl, hrespond, hput, hnumber, hdrop, ?_, ?_⟩
  · rw [← toNat_cacheTtl]
    exact hexpires
  · rw [← hserved]
    dsimp only [DnsCacheEntry.served]
    simp only [hresp, elapsedSecs_pos_iff]
    rfl

end Run

section Step
variable {stripAaaa : Bool} {table : DnsTable} {acts : List Action} {s t : State}

/-- A step that stores nothing. -/
theorem CacheInv.grow (h : CacheInv acts s) (hgrows : Grows s t) (a : Action)
    (hcache : t.cache = s.cache) (hstored : t.stored = s.stored)
    (hhits : ∀ x ∈ t.hits, x ∈ s.hits ∨ t.ServesAnswer (acts ++ [a]) x.request x.now x.agedNow x.data) :
    CacheInv (acts ++ [a]) t where
  len := by
    rw [hcache]
    exact h.len
  entry key e he := by
    rw [hcache] at he
    rw [hstored]
    exact h.entry key e he
  stored st hst := by
    rw [hstored] at hst
    obtain ⟨hlen, i, l, clock, order, hl, hrequest, hanswer, hput⟩ := h.stored st hst
    obtain ⟨l', hl', hrequest', _, _, hanswer', _⟩ := hgrows.leader i l hl
    exact ⟨hlen, i, l', clock, order, hl', hrequest'.trans hrequest, hanswer' _ hanswer,
      List.mem_append_left _ hput⟩
  hit x hx := by
    rcases hhits x hx with hold | hnew
    · exact hgrows.servesAnswer a (h.hit x hold)
    · exact hnew

/-- What is stored is the answer of its leader. -/
theorem CacheInv.put (hs : Inv s) (h : CacheInv acts s) {i : ℕ} {now : Instant}
    {clock : Bytes → Instant} {order : CacheOrder}
    (hstep : Doh.step stripAaaa s (.put i now clock order) = some t) :
    CacheInv (acts ++ [.put i now clock order]) t := by
  have hgrows := grows_of_step hs hstep
  obtain ⟨request, response, sent, answer, hl, rfl⟩ := step_put hstep
  obtain ⟨_, hanswer, hips⟩ := (hs.leader i _ hl).2
  exact
    { len := DnsCache.len_put order s.cache _ _ _ _ h.len
      entry := by
        intro key e he
        rcases DnsCache.lookup_put order s.cache _ _ _ _ he with ⟨rfl, rfl⟩ | hold
        · exact ⟨⟨request, response, now⟩, by simp, rfl, rfl⟩
        · obtain ⟨st, hst, hst'⟩ := h.entry key e hold
          exact ⟨st, List.mem_append_left _ hst, hst'⟩
      stored := by
        intro st hst
        rw [List.mem_append, List.mem_singleton] at hst
        obtain hst | rfl := hst
        · obtain ⟨hlen, k, l, clock', order', hl', hrequest, hanswer', hput⟩ := h.stored st hst
          obtain ⟨l', hl'', hrequest', _, _, hanswer'', _⟩ := hgrows.leader k l hl'
          exact ⟨hlen, k, l', clock', order', hl'', hrequest'.trans hrequest,
            hanswer'' _ hanswer', List.mem_append_left _ hput⟩
        · obtain ⟨ips, hips⟩ := Option.isSome_iff_exists.mp hips
          have hlen := length_of_parseIpRecords hips
          exact ⟨by dsimp only; omega, i, _, clock, order, getElem?_set_of_eq_some hl, rfl, hanswer,
            by simp⟩
      hit := fun x hx => hgrows.servesAnswer _ (h.hit x hx) }

theorem CacheInv.step (hrun : (system stripAaaa table).run acts = some s) (h : CacheInv acts s)
    {a : Action} (hstep : step stripAaaa s a = some t) : CacheInv (acts ++ [a]) t := by
  have hs := inv_of_run hrun
  have hgrows := grows_of_step hs hstep
  have hkeep : t.cache = s.cache → t.stored = s.stored → t.hits = s.hits →
      CacheInv (acts ++ [a]) t := by
    intro hcache hstored hhits
    apply h.grow hgrows a hcache hstored
    intro x hx
    rw [hhits] at hx
    exact .inl hx
  cases a with
  | datagram addr packet =>
    obtain ⟨_, rfl⟩ := step_datagram hstep
    obtain ⟨client, queries, heq⟩ := exists_receiveDatagram_eq s stripAaaa addr packet
    rw [heq] at hkeep ⊢
    exact hkeep rfl rfl rfl
  | clientError =>
    obtain rfl := step_clientError hstep
    exact hkeep rfl rfl rfl
  | lookup now agedNow =>
    obtain ⟨request, hclient, rfl⟩ := step_lookup hstep
    obtain ⟨_, heq⟩ | ⟨cached, hget, heq⟩ := lookUp_cases s request now agedNow
    · rw [heq] at hgrows ⊢
      exact h.grow hgrows _ rfl rfl (fun x hx => .inl hx)
    · rw [heq] at hgrows ⊢
      apply h.grow hgrows _ rfl rfl
      intro x hx
      rw [List.mem_append, List.mem_singleton] at hx
      obtain hx | rfl := hx
      · exact .inl hx
      · exact .inr (hgrows.servesAnswer _ (h.servesAnswer hrun hclient hget))
  | join =>
    obtain ⟨request, _, rfl⟩ := step_join hstep
    obtain ⟨_, heq⟩ | ⟨i, _, heq⟩ := tryJoin_cases s request
    · rw [heq] at hgrows ⊢
      exact h.grow hgrows _ rfl rfl (fun x hx => .inl hx)
    · rw [heq] at hgrows ⊢
      exact h.grow hgrows _ rfl rfl (fun x hx => .inl hx)
  | register =>
    obtain ⟨request, _, rfl⟩ := step_register hstep
    exact hkeep rfl rfl rfl
  | respond i outcome =>
    obtain ⟨request, sent, answer, _, rfl⟩ := step_respond hstep
    exact hkeep rfl rfl rfl
  | put i now clock order =>
    exact h.put hs hstep
  | complete i =>
    obtain ⟨request, outcome, sent, answer, _, rfl⟩ := step_complete hstep
    exact hkeep rfl rfl rfl
  | broadcast i =>
    obtain ⟨request, reply, sent, answer, _, rfl⟩ := step_broadcast hstep
    exact hkeep rfl rfl rfl
  | receive j =>
    obtain ⟨f, l, _, _, _, ⟨data, _, rfl⟩ | ⟨_, _, rfl⟩⟩ := step_receive hstep
    · exact hkeep rfl rfl rfl
    · exact hkeep rfl rfl rfl
  | row task now evictNow order =>
    obtain ⟨reply, ip, ips, _, rfl⟩ := step_row hstep
    exact hkeep (cache_deliver s task _) (stored_deliver s task _) (hits_deliver s task _)
  | send task ok =>
    obtain ⟨reply, _, rfl⟩ := step_send hstep
    exact hkeep (cache_deliver s task _) (stored_deliver s task _) (hits_deliver s task _)

end Step

theorem cacheInv_of_run {stripAaaa : Bool} {table : DnsTable} {acts : List Action} {s : State}
    (h : (system stripAaaa table).run acts = some s) : CacheInv acts s :=
  System.run_induction (P := CacheInv) (cacheInv_initial table)
    (fun _ _ _ _ hrun hcache hstep => hcache.step hrun hstep) acts s h

/-- The cache is bounded, and whatever it serves is an answer that is fresh enough. -/
theorem run_serves_answers {stripAaaa : Bool} {table : DnsTable} {acts : List Action} {s : State}
    (hrun : (system stripAaaa table).run acts = some s) :
    HashMap.len s.cache ≤ 10000 ∧
      (∀ request now agedNow data, s.client = .lookingUp request →
        s.cache.get request.query.key request.query.txId now agedNow = some data →
          s.ServesAnswer acts request now agedNow data) ∧
      ∀ r ∈ s.sent, r.route = .cached →
        ∃ now agedNow, s.ServesAnswer acts r.request now agedNow r.data := by
  have hcache := cacheInv_of_run hrun
  refine ⟨hcache.len, fun request now agedNow data => hcache.servesAnswer hrun, ?_⟩
  intro r hr hroute
  have htraces := ((sentInv_of_run hrun).sent r hr).1
  unfold State.Traces at htraces
  simp only [hroute] at htraces
  obtain ⟨h, hh, hrequest, hdata⟩ := htraces
  rw [← hrequest, ← hdata]
  exact ⟨_, _, hcache.hit h hh⟩

def sampleClient : SocketAddr := .v4 (.new 192 168 1 10) 40000

def sampleQuery (hi lo : UInt8) : Bytes :=
  [hi, lo, 1, 0, 0, 1, 0, 0, 0, 0, 0, 0] ++ [1, 97, 0, 0, 1, 0, 1]

def sampleAnswer (hi lo : UInt8) : Bytes :=
  [hi, lo, 0x81, 0x80, 0, 1, 0, 1, 0, 0, 0, 0] ++ [1, 97, 0, 0, 1, 0, 1] ++
    [0xC0, 12, 0, 1, 0, 1, 0, 0, 0, 60, 0, 4, 192, 0, 2, 1]

/-- A query leads a request, the server answers, and the answer is sent. -/
def sampleLead (packet response : Bytes) : List Action :=
  [.datagram sampleClient packet, .lookup 0 0, .join, .register, .respond 0 (some response),
    .put 0 0 (fun _ => 0) .stored, .complete 0, .broadcast 0, .row (.leader 0) 0 0 .stored,
    .send (.leader 0) true]

/-- A second query finds the answer five seconds later. -/
def sampleHit : List Action :=
  sampleLead (sampleQuery 0x12 0x34) (sampleAnswer 0x12 0x34) ++
    [.datagram sampleClient (sampleQuery 0xAB 0xCD), .lookup (fromSecs 5) (fromSecs 5),
      .row .client (fromSecs 5) (fromSecs 5) .stored, .send .client true]

theorem run_serves_answers_sample : ∃ s, (system false ∅).run sampleHit = some s ∧
    ∃ r ∈ s.sent, r.route = .cached ∧ r.data.take 2 = [0xAB, 0xCD] ∧
      ∃ now agedNow, s.ServesAnswer sampleHit r.request now agedNow r.data := by
  have hrun : ((system false ∅).run sampleHit).map
      (fun s => s.sent.map (fun r => (r.route, r.data.take 2))) =
        some [(.leader, [0x12, 0x34]), (.cached, [0xAB, 0xCD])] := by
    decide +kernel
  obtain ⟨s, hs, hsent⟩ := Option.map_eq_some_iff.mp hrun
  have hmem : (Route.cached, [0xAB, 0xCD]) ∈ s.sent.map (fun r => (r.route, r.data.take 2)) := by
    rw [hsent]
    simp
  obtain ⟨r, hr, heq⟩ := List.mem_map.mp hmem
  obtain ⟨hroute, hdata⟩ := Prod.mk.inj heq
  exact ⟨s, hs, r, hr, hroute, hdata, (run_serves_answers hs).2.2 r hr hroute⟩

end TransProxy.Dns.Doh
