import TransProxy.Dns.DohCache

/-!
# The transaction IDs of the replies

Four of the five routes put the ID of the query into the reply. A query that leads its
request is sent what the DoH server returned, as it is.
-/
namespace TransProxy.Dns.Doh
open Library Net

def Reply.CarriesOwnId (r : Reply) : Prop := r.data.take 2 = r.request.query.packet.take 2

theorem Query.u16ToBeBytes_txId (q : Query) : u16ToBeBytes q.txId = q.packet.take 2 := by
  rw [Query.txId, u16ToBeBytes_u16At_zero]

theorem State.ServesAnswer.take {s : State} {acts : List Action} {request : Request}
    {now agedNow : Instant} {data : Bytes} (h : s.ServesAnswer acts request now agedNow data) :
    data.take 2 = request.query.packet.take 2 := by
  obtain ⟨_, _, response, time, _, _, _, _, _, _, _, _, hdata⟩ := h
  have hlen := request.query.hlen
  have hresp : (request.query.packet.take 2 ++ response.drop 2).take 2 =
      request.query.packet.take 2 := by
    rw [List.take_append_of_le_length (by rw [List.length_take]; omega), List.take_take,
      Nat.min_self]
  rw [hdata]
  dsimp only
  split_ifs
  · have htake := congrArg (List.take 2) (take_rewriteTtls
      (request.query.packet.take 2 ++ response.drop 2)
      (UInt32.ofNat (min ((agedNow - time) / fromSecs 1) u32Max.toNat)))
    rw [List.take_take, List.take_take] at htake
    exact htake.trans hresp
  · exact hresp

section Run
variable {stripAaaa : Bool} {table : DnsTable} {acts : List Action} {s : State}

/-- Whatever the server returns, the other four routes answer under the right ID. -/
theorem carriesOwnId_of_traces (hrun : (system stripAaaa table).run acts = some s)
    (hlen : ∀ i response, Action.respond i (some response) ∈ acts → 2 ≤ response.length)
    {r : Reply} (hr : s.Traces acts r) (hroute : r.route ≠ .leader) : r.CarriesOwnId := by
  unfold State.Traces at hr
  cases hcase : r.route <;> simp only [hcase] at hr
  · exact (take_of_buildEmptyResponse hr).2
  · obtain ⟨h, hh, hrequest, hdata⟩ := hr
    have htake := ((cacheInv_of_run hrun).hit h hh).take
    rw [hrequest, hdata] at htake
    exact htake
  · obtain ⟨j, f, l, hf, _, hl, hrequest, reply, hannounces, _, hdata⟩ := hr
    have htwo : 2 ≤ reply.data.length := by
      obtain ⟨_, ⟨_, hanswer⟩ | ⟨_, _, hservfail⟩⟩ := hannounces
      · exact hlen f.leader reply.data ((respond_mem_iff hrun _ _).mpr ⟨l, hl, hanswer⟩)
      · exact (take_of_buildEmptyResponse hservfail).1
    rw [Reply.CarriesOwnId, hdata, take_restoreTxId _ htwo, Query.u16ToBeBytes_txId]
  · exact absurd hcase hroute
  · obtain ⟨i, l, _, _, ⟨hrequest, ⟨hleader, _⟩ | ⟨_, _, hservfail⟩⟩, _⟩ := hr
    · rw [hcase] at hleader
      cases hleader
    · rw [Reply.CarriesOwnId, hrequest]
      exact (take_of_buildEmptyResponse hservfail).2

/-- A leader is sent exactly what the server returned. -/
theorem mem_sent_of_leader (hrun : (system stripAaaa table).run acts = some s) {i : ℕ} {l : Leader}
    {response : Bytes} (hl : s.leaders[i]? = some l)
    (hrespond : Action.respond i (some response) ∈ acts)
    (hsend : Action.send (.leader i) true ∈ acts) : ⟨l.request, .leader, response⟩ ∈ s.sent := by
  obtain ⟨l₁, hl₁, hanswer⟩ := (respond_mem_iff hrun i _).mp hrespond
  obtain ⟨l₂, reply, hl₂, ⟨hrequest, ⟨hroute, hdata⟩ | ⟨_, hfailed, _⟩⟩, hmem⟩ :=
    (sentInv_of_run hrun).leader i hsend
  · obtain rfl := Option.some.inj (hl₁.symm.trans hl)
    obtain rfl := Option.some.inj (hl₂.symm.trans hl)
    rw [hanswer, Option.some.injEq, Option.some.injEq] at hdata
    have hreply : reply = ⟨l₂.request, .leader, response⟩ := by
      rw [← hrequest, ← hroute, hdata]
    rw [← hreply]
    exact hmem
  · obtain rfl := Option.some.inj (hl₁.symm.trans hl₂)
    rw [hanswer] at hfailed
    cases hfailed

/-- Every datagram sent carries the ID of the query it answers exactly if the server repeats
the ID of each query whose client is sent its response. -/
theorem carriesOwnId_iff (hrun : (system stripAaaa table).run acts = some s)
    (hlen : ∀ i response, Action.respond i (some response) ∈ acts → 2 ≤ response.length) :
    (∀ r ∈ s.sent, r.data.take 2 = r.request.query.packet.take 2) ↔
      ∀ i response l, Action.respond i (some response) ∈ acts →
        Action.send (.leader i) true ∈ acts → s.leaders[i]? = some l →
          response.take 2 = l.request.query.packet.take 2 := by
  constructor
  · intro h i response l hrespond hsend hl
    exact h _ (mem_sent_of_leader hrun hl hrespond hsend)
  · intro h r hr
    have htraces := ((sentInv_of_run hrun).sent r hr).1
    by_cases hroute : r.route = .leader
    · unfold State.Traces at htraces
      simp only [hroute] at htraces
      obtain ⟨i, l, hl, _, ⟨hrequest, ⟨_, hanswer⟩ | ⟨hservfail, _⟩⟩, hsend⟩ := htraces
      · rw [hrequest]
        exact h i r.data l ((respond_mem_iff hrun i _).mpr ⟨l, hl, hanswer⟩) hsend hl
      · rw [hroute] at hservfail
        cases hservfail
    · exact carriesOwnId_of_traces hrun hlen htraces hroute

theorem carriesOwnId_iff_sample : ∃ s, (system false ∅).run sampleHit = some s ∧
    s.sent.length = 2 ∧ ∀ r ∈ s.sent, r.data.take 2 = r.request.query.packet.take 2 := by
  have hrun : ((system false ∅).run sampleHit).map
      (fun s => (s.sent.length, s.leaders.map (fun l => l.request.query.packet.take 2))) =
        some (2, [[0x12, 0x34]]) := by
    decide +kernel
  obtain ⟨s, hs, hfields⟩ := Option.map_eq_some_iff.mp hrun
  obtain ⟨hlen, hleaders⟩ := Prod.mk.inj hfields
  have hrespond : ∀ i response, Action.respond i (some response) ∈ sampleHit →
      response = sampleAnswer 0x12 0x34 := by
    intro i response h
    simp only [sampleHit, sampleLead, List.cons_append, List.nil_append, List.mem_cons,
      Action.respond.injEq, reduceCtorEq, List.not_mem_nil, or_false, false_or] at h
    exact Option.some.inj h.2
  refine ⟨s, hs, hlen, (carriesOwnId_iff hs ?_).mpr ?_⟩
  · intro i response h
    rw [hrespond i response h]
    decide
  · intro i response l h _ hl
    have hmem := List.mem_map_of_mem (f := fun l => l.request.query.packet.take 2)
      (List.mem_of_getElem? hl)
    rw [hleaders, List.mem_singleton] at hmem
    rw [hrespond i response h, hmem]
    rfl

/-- A server that answers under ID zero, as a shared HTTP cache would: the client that leads
the request is sent an ID that it did not use. -/
theorem not_carriesOwnId : ∃ s,
    (system false ∅).run (sampleLead (sampleQuery 0x12 0x34) (sampleAnswer 0 0)) = some s ∧
      ∃ r ∈ s.sent, r.route = .leader ∧ r.request.query.packet = sampleQuery 0x12 0x34 ∧
        2 ≤ (sampleAnswer 0 0).length ∧ r.data = sampleAnswer 0 0 ∧
          r.data.take 2 ≠ r.request.query.packet.take 2 := by
  have hrun : ((system false ∅).run (sampleLead (sampleQuery 0x12 0x34) (sampleAnswer 0 0))).map
      (fun s => s.sent.map (fun r => (r.route, r.request.query.packet, r.data))) =
        some [(.leader, sampleQuery 0x12 0x34, sampleAnswer 0 0)] := by
    decide +kernel
  obtain ⟨s, hs, hsent⟩ := Option.map_eq_some_iff.mp hrun
  have hmem : (Route.leader, sampleQuery 0x12 0x34, sampleAnswer 0 0) ∈
      s.sent.map (fun r => (r.route, r.request.query.packet, r.data)) := by
    rw [hsent]
    simp
  obtain ⟨r, hr, heq⟩ := List.mem_map.mp hmem
  simp only [Prod.mk.injEq] at heq
  obtain ⟨hroute, hpacket, hdata⟩ := heq
  exact ⟨s, hs, r, hr, hroute, hpacket, by decide, hdata, by rw [hdata, hpacket]; decide⟩

end Run
end TransProxy.Dns.Doh
