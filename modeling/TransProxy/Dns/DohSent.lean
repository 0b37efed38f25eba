import TransProxy.Dns.DohReplies

/-!
# Where the datagrams sent come from

Every datagram sent is traced to the task that sent it, and from there to what the
DoH server returned. No two of them answer one query.
-/
namespace TransProxy.Dns.Doh
open Library Net

theorem Inv.leader_unique {s : State} (hs : Inv s) {i k : ℕ} {l l' : Leader}
    (hl : s.leaders[i]? = some l) (hl' : s.leaders[k]? = some l')
    (hnumber : l.request.number = l'.request.number) : i = k :=
  eq_of_nodup_map (List.nodup_append.mp hs.distinct).1 hl hl' hnumber

theorem Inv.follower_unique {s : State} (hs : Inv s) {j k : ℕ} {f f' : Follower}
    (hf : s.followers[j]? = some f) (hf' : s.followers[k]? = some f')
    (hnumber : f.request.number = f'.request.number) : j = k :=
  eq_of_nodup_map (List.nodup_append.mp hs.distinct).2.1 hf hf' hnumber

theorem mem_numbers_of_leader {s : State} {i : ℕ} {l : Leader} (hl : s.leaders[i]? = some l) :
    l.request.number ∈ s.numbers :=
  List.mem_append_left _ (List.mem_map_of_mem (List.mem_of_getElem? hl))

theorem mem_numbers_of_follower {s : State} {j : ℕ} {f : Follower}
    (hf : s.followers[j]? = some f) : f.request.number ∈ s.numbers :=
  List.mem_append_right _ (List.mem_map_of_mem (List.mem_of_getElem? hf))

theorem Inv.leader_ne_follower {s : State} (hs : Inv s) {i j : ℕ} {l : Leader} {f : Follower}
    (hl : s.leaders[i]? = some l) (hf : s.followers[j]? = some f) :
    l.request.number ≠ f.request.number :=
  (List.nodup_append.mp hs.distinct).2.2 _ (List.mem_map_of_mem (List.mem_of_getElem? hl)) _
    (List.mem_map_of_mem (List.mem_of_getElem? hf))

/-- What a completion task has broadcast is the reply it announces. -/
theorem Leader.Coherent.announces {l : Leader} (h : l.Coherent) {data : Bytes}
    (hsent : l.sent = [data]) : ∃ reply, reply.data = data ∧ l.Announces reply := by
  have hne : ¬ l.sent = [] := by simp [hsent]
  unfold Leader.Coherent at h
  cases hp : l.phase <;> simp only [hp] at h
  · exact absurd h.1 hne
  · exact absurd h.1 hne
  · exact absurd h.1 hne
  · exact absurd h.1 hne
  · refine ⟨_, ?_, h.2⟩
    exact (List.cons.inj (hsent.symm.trans h.1)).1.symm
  · obtain h | ⟨reply, h, hannounces⟩ := h
    · exact absurd h.1 hne
    · exact ⟨reply, (List.cons.inj (hsent.symm.trans h)).1.symm, hannounces⟩

/-- The reply is what a leader broadcast, under the transaction ID of the follower's query. -/
def Follower.Relays (f : Follower) (l : Leader) (r : Reply) : Prop :=
  f.request = r.request ∧ ∃ reply, l.Announces reply ∧ l.sent = [reply.data] ∧
    r.data = restoreTxId reply.data r.request.query.txId

/-- Where a reply came from, in a run with these actions. -/
def State.Traces (s : State) (acts : List Action) (r : Reply) : Prop :=
  match r.route with
  | .nodata => buildNodata r.request.query.packet = some r.data
  | .cached => ∃ h ∈ s.hits, h.request = r.request ∧ h.data = r.data
  | .coalesced => ∃ (j : ℕ) (f : Follower) (l : Leader), s.followers[j]? = some f ∧ f.phase = .finished ∧
      s.leaders[f.leader]? = some l ∧ f.Relays l r
  | .leader => ∃ (i : ℕ) (l : Leader), s.leaders[i]? = some l ∧ l.phase = .finished ∧ l.Announces r ∧
      Action.send (.leader i) true ∈ acts
  | .servfail => ∃ (i : ℕ) (l : Leader), s.leaders[i]? = some l ∧ l.phase = .finished ∧ l.Announces r ∧
      Action.send (.leader i) true ∈ acts

/-- A query of which no task will say anything more. -/
structure State.Spent (s : State) (n : ℕ) : Prop where
  received : n < s.queries.length
  client : ∀ r, s.client.request = some r → r.number ≠ n
  tasks : n ∈ s.numbers →
    (∃ (i : ℕ) (l : Leader), s.leaders[i]? = some l ∧ l.request.number = n ∧ l.phase = .finished) ∨
      ∃ (j : ℕ) (f : Follower), s.followers[j]? = some f ∧ f.request.number = n ∧
        f.phase = .finished

theorem State.Spent.addSent {s : State} {n : ℕ} (h : s.Spent n) (sent : List Reply) :
    ({ s with sent } : State).Spent n :=
  ⟨h.received, h.client, h.tasks⟩

theorem Leader.Announces.mono {l l' : Leader} {r : Reply} (h : l.Announces r)
    (hrequest : l'.request = l.request) (hanswer : ∀ o, l.answer = some o → l'.answer = some o) :
    l'.Announces r := by
  obtain ⟨hr, ⟨hroute, ho⟩ | ⟨hroute, ho, hservfail⟩⟩ := h
  · exact ⟨hr.trans hrequest.symm, .inl ⟨hroute, hanswer _ ho⟩⟩
  · exact ⟨hr.trans hrequest.symm, .inr ⟨hroute, hanswer _ ho, by rw [hrequest]; exact hservfail⟩⟩

theorem Grows.traces {s t : State} (h : Grows s t) {acts : List Action} {r : Reply} (a : Action)
    (hr : s.Traces acts r) : t.Traces (acts ++ [a]) r := by
  have hleader : (∃ (i : ℕ) (l : Leader), s.leaders[i]? = some l ∧ l.phase = .finished ∧ l.Announces r ∧
      Action.send (.leader i) true ∈ acts) → ∃ (i : ℕ) (l : Leader),
        t.leaders[i]? = some l ∧ l.phase = .finished ∧ l.Announces r ∧ Action.send (.leader i) true ∈ acts ++ [a] := by
    rintro ⟨i, l, hl, hphase, hannounces, hsend⟩
    obtain ⟨l', hl', _, hsame, _⟩ := h.leader i l hl
    obtain rfl := hsame hphase
    exact ⟨i, l', hl', hphase, hannounces, List.mem_append_left _ hsend⟩
  unfold State.Traces at hr ⊢
  cases hroute : r.route <;> simp only [hroute] at hr ⊢
  · exact hr
  · obtain ⟨hit, hhit, hreply⟩ := hr
    exact ⟨hit, h.hits hit hhit, hreply⟩
  · obtain ⟨j, f, l, hf, hphase, hl, hrequest, reply, hannounces, hsent, hdata⟩ := hr
    obtain ⟨f', hf', _, _, hsame, _⟩ := h.follower j f hf
    obtain rfl := hsame hphase
    obtain ⟨l', hl', hrequest', _, hsent', hanswer, _⟩ := h.leader _ l hl
    exact ⟨j, f', l', hf', hphase, hl', hrequest, reply, hannounces.mono hrequest' hanswer,
      (hsent' (by simp [hsent])).trans hsent, hdata⟩
  · exact hleader hr
  · exact hleader hr

theorem Grows.spent {s t : State} (h : Grows s t) {n : ℕ} (hn : s.Spent n) : t.Spent n where
  received := by
    have hq := h.queries n _ (List.getElem?_eq_getElem hn.received)
    exact (List.getElem?_eq_some_iff.mp hq).1
  client r hr := by
    rcases h.client r hr with hold | hnew
    · exact hn.client r hold
    · have hlt := hn.received
      omega
  tasks ht := by
    rcases h.numbers n ht with hold | ⟨r, hr, hnumber⟩
    · rcases hn.tasks hold with ⟨i, l, hl, hnumber, hphase⟩ | ⟨j, f, hf, hnumber, hphase⟩
      · obtain ⟨l', hl', _, hsame, _⟩ := h.leader i l hl
        obtain rfl := hsame hphase
        exact .inl ⟨i, l', hl', hnumber, hphase⟩
      · obtain ⟨f', hf', _, _, hsame, _⟩ := h.follower j f hf
        obtain rfl := hsame hphase
        exact .inr ⟨j, f', hf', hnumber, hphase⟩
    · exact absurd hnumber (hn.client r hr)

section Delivery
variable {s : State} {task : Task} {d : Delivery}

/-- The query that a task delivers an answer to, as it was received. -/
theorem Inv.query_of_delivery (hs : Inv s) (hd : s.delivery task = some d) :
    s.queries[d.reply.request.number]? = some d.reply.request.query := by
  cases task with
  | client =>
    have hclient := delivery_client hd
    exact (hs.client d.reply.request (by rw [hclient]; rfl)).1
  | leader i =>
    obtain ⟨request, sent, answer, hl⟩ := delivery_leader hd
    obtain ⟨hquery, _, hrequest, _⟩ := hs.leader i _ hl
    rw [hrequest]
    exact hquery
  | follower j =>
    obtain ⟨request, leader, next, hf⟩ := delivery_follower hd
    obtain ⟨hquery, l, _, hcoherent⟩ := hs.follower j _ hf
    obtain ⟨hrequest, _⟩ := hcoherent.phase
    rw [hrequest]
    exact hquery

/-- Nothing was said yet of a query that a task delivers an answer to. -/
theorem Inv.not_spent_of_delivery (hs : Inv s) (hd : s.delivery task = some d) :
    ¬ s.Spent d.reply.request.number := by
  intro hspent
  cases task with
  | client =>
    have hclient := delivery_client hd
    exact hspent.client d.reply.request (by rw [hclient]; rfl) rfl
  | leader i =>
    obtain ⟨request, sent, answer, hl⟩ := delivery_leader hd
    obtain ⟨_, _, hrequest, _⟩ := hs.leader i _ hl
    rw [hrequest] at hspent
    rcases hspent.tasks (mem_numbers_of_leader hl) with ⟨k, l, hl', hnumber, hphase⟩ |
      ⟨j, f, hf, hnumber, _⟩
    · obtain rfl := hs.leader_unique hl' hl hnumber
      obtain rfl := Option.some.inj (hl'.symm.trans hl)
      cases hphase
    · exact hs.leader_ne_follower hl hf hnumber.symm
  | follower j =>
    obtain ⟨request, leader, next, hf⟩ := delivery_follower hd
    obtain ⟨_, _, _, hcoherent⟩ := hs.follower j _ hf
    obtain ⟨hrequest, _⟩ := hcoherent.phase
    rw [hrequest] at hspent
    rcases hspent.tasks (mem_numbers_of_follower hf) with ⟨i, l, hl, hnumber, _⟩ |
      ⟨k, f, hf', hnumber, hphase⟩
    · exact hs.leader_ne_follower hl hf hnumber
    · obtain rfl := hs.follower_unique hf' hf hnumber
      obtain rfl := Option.some.inj (hf'.symm.trans hf)
      cases hphase

/-- A task that is done with its delivery says nothing more of its query. -/
theorem Inv.spent_of_delivery (hs : Inv s) (hd : s.delivery task = some d) :
    (s.deliver task none).Spent d.reply.request.number := by
  have hreceived := (List.getElem?_eq_some_iff.mp (hs.query_of_delivery hd)).1
  cases task with
  | client =>
    have hclient := delivery_client hd
    have hfresh := hs.fresh d.reply.request (by rw [hclient]; rfl)
    exact ⟨hreceived, by simp [State.deliver, ClientTask.request], fun h => absurd h hfresh⟩
  | leader i =>
    obtain ⟨request, sent, answer, hl⟩ := delivery_leader hd
    obtain ⟨_, _, hrequest, _⟩ := hs.leader i _ hl
    rw [hrequest] at hreceived ⊢
    simp only [State.deliver, hl]
    refine ⟨hreceived, ?_, fun _ => .inl ⟨i, _, getElem?_set_of_eq_some hl, rfl, rfl⟩⟩
    intro r hr hnumber
    exact hs.fresh r hr (hnumber ▸ mem_numbers_of_leader hl)
  | follower j =>
    obtain ⟨request, leader, next, hf⟩ := delivery_follower hd
    obtain ⟨_, _, _, hcoherent⟩ := hs.follower j _ hf
    obtain ⟨hrequest, _⟩ := hcoherent.phase
    rw [hrequest] at hreceived ⊢
    simp only [State.deliver, hf]
    refine ⟨hreceived, ?_, fun _ => .inr ⟨j, _, getElem?_set_of_eq_some hf, rfl, rfl⟩⟩
    intro r hr hnumber
    exact hs.fresh r hr (hnumber ▸ mem_numbers_of_follower hf)

/-- What a completion task or a follower sends can be traced to it. -/
theorem Inv.traces_of_delivery (hs : Inv s) (acts : List Action) (htask : task ≠ .client)
    (hd : s.delivery task = some d) :
    (s.deliver task none).Traces (acts ++ [.send task true]) d.reply := by
  cases task with
  | client => exact absurd rfl htask
  | leader i =>
    obtain ⟨request, sent, answer, hl⟩ := delivery_leader hd
    obtain ⟨_, _, hannounces⟩ := hs.leader i _ hl
    obtain ⟨_, ⟨hroute, _⟩ | ⟨hroute, _⟩⟩ := id hannounces
    · simp only [State.Traces, hroute, State.deliver, hl]
      exact ⟨i, _, getElem?_set_of_eq_some hl, rfl, hannounces, by simp⟩
    · simp only [State.Traces, hroute, State.deliver, hl]
      exact ⟨i, _, getElem?_set_of_eq_some hl, rfl, hannounces, by simp⟩
  | follower j =>
    obtain ⟨request, leader, next, hf⟩ := delivery_follower hd
    obtain ⟨_, l, hl, hcoherent⟩ := hs.follower j _ hf
    obtain ⟨hrequest, hroute, data, hsent, hdata⟩ := hcoherent.phase
    obtain ⟨reply, rfl, hannounces⟩ := (hs.leader _ l hl).2.announces hsent
    simp only [State.Traces, hroute, State.deliver, hf]
    exact ⟨j, _, l, getElem?_set_of_eq_some hf, rfl, hl, hrequest.symm, reply, hannounces, hsent,
      by rw [hdata, hrequest]⟩

end Delivery

structure SentInv (acts : List Action) (s : State) : Prop where
  /-- The client loop itself delivers what it made or found in the cache. -/
  client : ∀ d, s.client = .delivering d →
    (d.reply.route = .nodata ∨ d.reply.route = .cached) ∧ s.Traces acts d.reply
  sent : ∀ r ∈ s.sent, s.Traces acts r ∧ s.queries[r.request.number]? = some r.request.query ∧
    s.Spent r.request.number
  nodup : (s.sent.map (fun r => r.request.number)).Nodup
  leader : ∀ i : ℕ, Action.send (.leader i) true ∈ acts →
    ∃ l reply, s.leaders[i]? = some l ∧ l.Announces reply ∧ reply ∈ s.sent

theorem sentInv_initial (table : DnsTable) : SentInv [] (initial table) := by
  constructor <;> simp [initial]

section Step
variable {stripAaaa : Bool} {acts : List Action} {s t : State} {a : Action}

/-- A step that sends nothing. -/
theorem SentInv.grow (h : SentInv acts s) (hgrows : Grows s t) (hsent : t.sent = s.sent)
    (hsend : ∀ task ok, a ≠ .send task ok)
    (hclient : ∀ d, t.client = .delivering d →
      (d.reply.route = .nodata ∨ d.reply.route = .cached) ∧ t.Traces (acts ++ [a]) d.reply) :
    SentInv (acts ++ [a]) t where
  client := hclient
  sent r hr := by
    rw [hsent] at hr
    obtain ⟨htraces, hquery, hspent⟩ := h.sent r hr
    exact ⟨hgrows.traces a htraces, hgrows.queries _ _ hquery, hgrows.spent hspent⟩
  nodup := by
    rw [hsent]
    exact h.nodup
  leader i hi := by
    rcases List.mem_append.mp hi with hold | hnew
    · obtain ⟨l, reply, hl, hannounces, hmem⟩ := h.leader i hold
      obtain ⟨l', hl', hrequest, _, _, hanswer, _⟩ := hgrows.leader i l hl
      exact ⟨l', reply, hl', hannounces.mono hrequest hanswer, by rw [hsent]; exact hmem⟩
    · exact absurd (List.mem_singleton.mp hnew).symm (hsend _ _)

/-- A step that sends nothing and is not one of the client loop. -/
theorem SentInv.grow_of_client_eq (h : SentInv acts s) (hgrows : Grows s t) (hsent : t.sent = s.sent)
    (hsend : ∀ task ok, a ≠ .send task ok) (hclient : t.client = s.client) :
    SentInv (acts ++ [a]) t := by
  apply h.grow hgrows hsent hsend
  intro d hd
  obtain ⟨hroute, htraces⟩ := h.client d (by rw [← hclient, hd])
  exact ⟨hroute, hgrows.traces a htraces⟩

/-- A task that is done with its delivery, whether the datagram could be sent or not. -/
theorem SentInv.done (h : SentInv acts s) {task : Task} {reply : Reply} (ok : Bool)
    (hd : s.delivery task = some ⟨reply, []⟩) :
    (∀ d, (s.deliver task none).client = .delivering d →
      (d.reply.route = .nodata ∨ d.reply.route = .cached) ∧
        (s.deliver task none).Traces (acts ++ [.send task ok]) d.reply) ∧
    ∀ r ∈ s.sent, (s.deliver task none).Traces (acts ++ [.send task ok]) r ∧
      (s.deliver task none).queries[r.request.number]? = some r.request.query ∧
        (s.deliver task none).Spent r.request.number := by
  have hgrows := grows_deliver none (by simp) hd
  constructor
  · intro d hclient
    have hsame : s.client = .delivering d := by
      cases task with
      | client => cases hclient
      | leader i =>
        obtain ⟨request, sent, answer, hl⟩ := delivery_leader hd
        simp only [State.deliver, hl] at hclient
        exact hclient
      | follower j =>
        obtain ⟨request, leader, next, hf⟩ := delivery_follower hd
        simp only [State.deliver, hf] at hclient
        exact hclient
    obtain ⟨hroute, htraces⟩ := h.client d hsame
    exact ⟨hroute, hgrows.traces _ htraces⟩
  · intro r hr
    obtain ⟨htraces, hquery, hspent⟩ := h.sent r hr
    exact ⟨hgrows.traces _ htraces, hgrows.queries _ _ hquery, hgrows.spent hspent⟩

theorem SentInv.sendFails (h : SentInv acts s) {task : Task} {reply : Reply}
    (hd : s.delivery task = some ⟨reply, []⟩) :
    SentInv (acts ++ [.send task false]) (s.deliver task none) := by
  obtain ⟨hclient, hold⟩ := h.done false hd
  exact
    { client := hclient
      sent := by
        rw [sent_deliver]
        exact hold
      nodup := by
        rw [sent_deliver]
        exact h.nodup
      leader := by
        intro i hi
        rcases List.mem_append.mp hi with hi | hi
        · obtain ⟨l, r, hl, hannounces, hmem⟩ := h.leader i hi
          obtain ⟨l', hl', hrequest, _, _, hanswer, _⟩ := (grows_deliver none (by simp) hd).leader i l hl
          exact ⟨l', r, hl', hannounces.mono hrequest hanswer, by rw [sent_deliver]; exact hmem⟩
        · simp at hi }

theorem SentInv.send (hs : Inv s) (h : SentInv acts s) {task : Task} {reply : Reply}
    (hd : s.delivery task = some ⟨reply, []⟩) :
    SentInv (acts ++ [.send task true])
      { s.deliver task none with sent := (s.deliver task none).sent ++ [reply] } := by
  obtain ⟨hclient, hold⟩ := h.done true hd
  have hgrows := grows_deliver none (by simp) hd
  have htraces : (s.deliver task none).Traces (acts ++ [.send task true]) reply := by
    cases task with
    | client => exact hgrows.traces _ (h.client _ (delivery_client hd)).2
    | leader i => exact hs.traces_of_delivery acts (by simp) hd
    | follower j => exact hs.traces_of_delivery acts (by simp) hd
  exact
    { client := hclient
      sent := by
        intro r hr
        rw [sent_deliver, List.mem_append, List.mem_singleton] at hr
        obtain hr | rfl := hr
        · obtain ⟨htraces', hquery, hspent⟩ := hold r hr
          exact ⟨htraces', hquery, hspent.addSent _⟩
        · exact ⟨htraces, hgrows.queries _ _ (hs.query_of_delivery hd),
            (hs.spent_of_delivery hd).addSent _⟩
      nodup := by
        rw [sent_deliver, List.map_append, List.nodup_append]
        refine ⟨h.nodup, by simp, ?_⟩
        intro n hn m hm hnm
        obtain ⟨r, hr, rfl⟩ := List.mem_map.mp hn
        obtain rfl := List.mem_singleton.mp hm
        -- the earlier reply would have left nothing to say of the query
        have hspent := (h.sent r hr).2.2
        rw [hnm] at hspent
        exact hs.not_spent_of_delivery hd hspent
      leader := by
        intro i hi
        rcases List.mem_append.mp hi with hi | hi
        · obtain ⟨l, r, hl, hannounces, hmem⟩ := h.leader i hi
          obtain ⟨l', hl', hrequest, _, _, hanswer, _⟩ := hgrows.leader i l hl
          refine ⟨l', r, hl', hannounces.mono hrequest hanswer, ?_⟩
          rw [sent_deliver]
          exact List.mem_append_left _ hmem
        · simp only [List.mem_singleton, Action.send.injEq, and_true] at hi
          subst hi
          obtain ⟨request, sent, answer, hl⟩ := delivery_leader hd
          obtain ⟨_, _, hannounces⟩ := hs.leader i _ hl
          simp only [State.deliver, hl]
          exact ⟨_, reply, getElem?_set_of_eq_some hl, hannounces, by simp⟩ }

theorem SentInv.receiveDatagram (h : SentInv acts s) {addr : SocketAddr} {packet : Bytes}
    (hgrows : Grows s (receiveDatagram stripAaaa s addr packet)) :
    SentInv (acts ++ [.datagram addr packet]) (receiveDatagram stripAaaa s addr packet) := by
  unfold Doh.receiveDatagram at hgrows ⊢
  by_cases hlen : packet.length < 12
  · simp only [hlen, dif_pos] at hgrows ⊢
    exact h.grow_of_client_eq hgrows rfl (by simp) rfl
  simp only [hlen, dif_neg, not_false_eq_true] at hgrows ⊢
  by_cases hstrip : stripAaaa = true ∧ parseQueryType packet = some dnsTypeAaaa
  · simp only [hstrip, and_self, if_true] at hgrows ⊢
    cases hnodata : buildNodata packet with
    | none =>
      simp only [hnodata] at hgrows ⊢
      exact h.grow_of_client_eq hgrows rfl (by simp) rfl
    | some resp =>
      simp only [hnodata] at hgrows ⊢
      apply h.grow hgrows rfl (by simp)
      rintro d ⟨⟩
      exact ⟨.inl rfl, hnodata⟩
  · simp only [hstrip, if_false] at hgrows ⊢
    exact h.grow hgrows rfl (by simp) (by simp)

theorem SentInv.row (h : SentInv acts s) {task : Task} {reply : Reply} {ip : IpAddr}
    {ips : List IpAddr} {table : DnsTable} {now evictNow : Instant}
    {order : HashMap.IterOrder IpAddr (String × Instant)}
    (hd : s.delivery task = some ⟨reply, ip :: ips⟩)
    (hgrows : Grows s { s.deliver task (some ⟨reply, ips⟩) with table }) :
    SentInv (acts ++ [.row task now evictNow order])
      { s.deliver task (some ⟨reply, ips⟩) with table } := by
  cases task with
  | client =>
    apply h.grow hgrows rfl (by simp)
    rintro d ⟨⟩
    obtain ⟨hroute, htraces⟩ := h.client _ (delivery_client hd)
    exact ⟨hroute, hgrows.traces _ htraces⟩
  | leader i =>
    obtain ⟨request, sent, answer, hl⟩ := delivery_leader hd
    simp only [State.deliver, hl] at hgrows ⊢
    exact h.grow_of_client_eq hgrows rfl (by simp) rfl
  | follower j =>
    obtain ⟨request, leader, next, hf⟩ := delivery_follower hd
    simp only [State.deliver, hf] at hgrows ⊢
    exact h.grow_of_client_eq hgrows rfl (by simp) rfl

theorem SentInv.step (hs : Inv s) (h : SentInv acts s) (hstep : step stripAaaa s a = some t) :
    SentInv (acts ++ [a]) t := by
  have hgrows := grows_of_step hs hstep
  cases a with
  | datagram addr packet =>
    obtain ⟨hclient, rfl⟩ := step_datagram hstep
    exact h.receiveDatagram hgrows
  | clientError =>
    obtain rfl := step_clientError hstep
    exact h.grow hgrows rfl (by simp) (by simp)
  | lookup now agedNow =>
    obtain ⟨request, _, rfl⟩ := step_lookup hstep
    obtain ⟨_, heq⟩ | ⟨cached, _, heq⟩ := lookUp_cases s request now agedNow
    · rw [heq] at hgrows ⊢
      exact h.grow hgrows rfl (by simp) (by simp)
    · rw [heq] at hgrows ⊢
      apply h.grow hgrows rfl (by simp)
      rintro d ⟨⟩
      exact ⟨.inr rfl, ⟨request, now, agedNow, cached⟩, by simp, rfl, rfl⟩
  | join =>
    obtain ⟨request, _, rfl⟩ := step_join hstep
    obtain ⟨_, heq⟩ | ⟨i, _, heq⟩ := tryJoin_cases s request
    · rw [heq] at hgrows ⊢
      exact h.grow hgrows rfl (by simp) (by simp)
    · rw [heq] at hgrows ⊢
      exact h.grow hgrows rfl (by simp) (by simp)
  | register =>
    obtain ⟨request, _, rfl⟩ := step_register hstep
    exact h.grow hgrows rfl (by simp) (by simp [register])
  | respond i outcome =>
    obtain ⟨request, sent, answer, _, rfl⟩ := step_respond hstep
    exact h.grow_of_client_eq hgrows rfl (by simp) rfl
  | put i now clock order =>
    obtain ⟨request, response, sent, answer, _, rfl⟩ := step_put hstep
    exact h.grow_of_client_eq hgrows rfl (by simp) rfl
  | complete i =>
    obtain ⟨request, outcome, sent, answer, _, rfl⟩ := step_complete hstep
    exact h.grow_of_client_eq hgrows rfl (by simp) rfl
  | broadcast i =>
    obtain ⟨request, reply, sent, answer, _, rfl⟩ := step_broadcast hstep
    exact h.grow_of_client_eq hgrows rfl (by simp) rfl
  | receive j =>
    obtain ⟨f, l, _, _, _, ⟨data, _, rfl⟩ | ⟨_, _, rfl⟩⟩ := step_receive hstep
    · exact h.grow_of_client_eq hgrows rfl (by simp) rfl
    · exact h.grow_of_client_eq hgrows rfl (by simp) rfl
  | row task now evictNow order =>
    obtain ⟨reply, ip, ips, hd, rfl⟩ := step_row hstep
    exact h.row hd hgrows
  | send task ok =>
    obtain ⟨reply, hd, rfl⟩ := step_send hstep
    cases ok with
    | false => exact h.sendFails hd
    | true => exact h.send hs hd

end Step

section Run
variable {stripAaaa : Bool} {table : DnsTable} {acts : List Action} {s : State}

theorem sentInv_of_run (h : (system stripAaaa table).run acts = some s) : SentInv acts s :=
  System.run_induction (P := SentInv) (sentInv_initial table)
    (fun _ _ _ _ hrun hsent hstep => hsent.step (inv_of_run hrun) hstep) acts s h

/-- What the DoH server returned to a completion task. -/
theorem respond_mem_iff (h : (system stripAaaa table).run acts = some s) (i : ℕ) (o : Outcome) :
    Action.respond i o ∈ acts ↔ ∃ l, s.leaders[i]? = some l ∧ l.answer = some o := by
  induction acts using List.reverseRecOn generalizing s with
  | nil =>
    obtain rfl := Option.some.inj h
    simp [system, initial]
  | append_singleton acts a ih =>
    obtain ⟨u, hu, hstep⟩ := System.exists_step_of_run_snoc h
    have hstep : step stripAaaa u a = some s := hstep
    rw [List.mem_append, List.mem_singleton, ih hu]
    constructor
    · rintro (⟨l, hl, ho⟩ | rfl)
      · obtain ⟨l', hl', _, _, _, hanswer, _⟩ := (grows_of_step (inv_of_run hu) hstep).leader i l hl
        exact ⟨l', hl', hanswer o ho⟩
      · obtain ⟨request, sent, answer, hl, rfl⟩ := step_respond hstep
        exact ⟨_, getElem?_set_of_eq_some hl, rfl⟩
    · rintro ⟨l', hl', ho⟩
      rcases answer_of_step hstep hl' ho with rfl | hold
      · exact .inr rfl
      · exact .inl hold

end Run

end TransProxy.Dns.Doh
