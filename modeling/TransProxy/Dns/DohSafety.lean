import TransProxy.Dns.Doh

/-!
# What the tasks of the DoH forwarder hold on to

One invariant says where each query is: with the client loop, with the completion task
that leads its request, or with a task that listens to such a one. A key is registered
exactly as long as its completion task has not removed it.
-/
namespace TransProxy.Dns.Doh
open Library Net

def ClientTask.request : ClientTask → Option Request
  | .receiving => none
  | .lookingUp request => some request
  | .joining request => some request
  | .registering request => some request
  | .delivering d => some d.reply.request
  | .stopped => none

/-- From `register` to `complete`. -/
def LeaderPhase.isRegistered : LeaderPhase → Bool
  | .requesting => true
  | .storing _ => true
  | .completing _ => true
  | _ => false

/-- The reply is what the DoH server returned, or the SERVFAIL for a request that failed. -/
def Leader.Announces (l : Leader) (reply : Reply) : Prop :=
  reply.request = l.request ∧
    (reply.route = .leader ∧ l.answer = some (some reply.data) ∨
      reply.route = .servfail ∧ l.answer = some none ∧
        buildServfail l.request.query.packet = some reply.data)

/-- The request failed and no SERVFAIL can be built for it. -/
def Leader.Silent (l : Leader) : Prop :=
  l.answer = some none ∧ buildServfail l.request.query.packet = none

/-- What a completion task has done and sent by each phase. -/
def Leader.Coherent (l : Leader) : Prop :=
  match l.phase with
  | .requesting => l.sent = [] ∧ l.answer = none
  | .storing response =>
    l.sent = [] ∧ l.answer = some (some response) ∧ (parseIpRecords response).isSome
  | .completing outcome => l.sent = [] ∧ l.answer = some outcome
  | .broadcasting reply => l.sent = [] ∧ l.Announces reply
  | .delivering d => l.sent = [d.reply.data] ∧ l.Announces d.reply
  | .finished => l.sent = [] ∧ l.Silent ∨ ∃ reply, l.sent = [reply.data] ∧ l.Announces reply

/-- A follower listens to a leader of its own key, from the first message on. -/
structure Follower.Coherent (f : Follower) (l : Leader) : Prop where
  key : f.request.query.key = l.request.query.key
  next : f.next = 0
  phase : match f.phase with
    | .waiting => True
    | .delivering d => d.reply.request = f.request ∧ d.reply.route = .coalesced ∧
        ∃ data, l.sent = [data] ∧ d.reply.data = restoreTxId data f.request.query.txId
    | .finished => ∃ data, l.sent = [data]
    | .dropped => l.phase = .finished ∧ l.sent = []

def State.numbers (s : State) : List ℕ :=
  s.leaders.map (fun l => l.request.number) ++ s.followers.map (fun f => f.request.number)

structure Inv (s : State) : Prop where
  /-- The client loop is at the last query. -/
  client : ∀ r, s.client.request = some r →
    s.queries[r.number]? = some r.query ∧ r.number + 1 = s.queries.length
  /-- No other task has its query. -/
  fresh : ∀ r, s.client.request = some r → r.number ∉ s.numbers
  leader : ∀ (i : ℕ) (l : Leader), s.leaders[i]? = some l →
    s.queries[l.request.number]? = some l.request.query ∧ l.Coherent
  registered : ∀ (key : Bytes) (i : ℕ), AList.lookup key s.inFlight = some i ↔
    ∃ l, s.leaders[i]? = some l ∧ l.request.query.key = key ∧ l.phase.isRegistered = true
  /-- Between a failed `try_join` and `register` nobody else registers. -/
  registering : ∀ r, s.client = .registering r → AList.lookup r.query.key s.inFlight = none
  follower : ∀ (j : ℕ) (f : Follower), s.followers[j]? = some f →
    s.queries[f.request.number]? = some f.request.query ∧
      ∃ l, s.leaders[f.leader]? = some l ∧ f.Coherent l
  distinct : s.numbers.Nodup

theorem inv_initial (table : DnsTable) : Inv (initial table) := by
  constructor <;> simp [initial, ClientTask.request, State.numbers]

/-- The tasks do not depend on the cache, the table and what was sent. -/
theorem Inv.congr {s t : State} (hs : Inv s) (hclient : t.client = s.client)
    (hleaders : t.leaders = s.leaders) (hfollowers : t.followers = s.followers)
    (hinFlight : t.inFlight = s.inFlight) (hqueries : t.queries = s.queries) : Inv t := by
  obtain ⟨_, _, _, _, _, _, _, _, _, _⟩ := s
  obtain ⟨_, _, _, _, _, _, _, _, _, _⟩ := t
  subst hclient hleaders hfollowers hinFlight hqueries
  exact ⟨hs.client, hs.fresh, hs.leader, hs.registered, hs.registering, hs.follower, hs.distinct⟩

/-- The number of a task is that of a query received. -/
theorem Inv.number_lt {s : State} (hs : Inv s) {n : ℕ} (h : n ∈ s.numbers) :
    n < s.queries.length := by
  rw [State.numbers, List.mem_append, List.mem_map, List.mem_map] at h
  obtain ⟨l, hl, rfl⟩ | ⟨f, hf, rfl⟩ := h
  · obtain ⟨i, hi⟩ := List.mem_iff_getElem?.mp hl
    exact (List.getElem?_eq_some_iff.mp (hs.leader i l hi).1).1
  · obtain ⟨j, hj⟩ := List.mem_iff_getElem?.mp hf
    exact (List.getElem?_eq_some_iff.mp (hs.follower j f hj).1).1

theorem Leader.Coherent.sent_eq_nil {l : Leader} (h : l.Coherent)
    (hphase : l.phase.isRegistered = true) : l.sent = [] := by
  unfold Leader.Coherent at h
  cases hp : l.phase <;> simp only [hp, LeaderPhase.isRegistered, reduceCtorEq] at hphase h
  · exact h.1
  · exact h.1
  · exact h.1

/-- The client loop goes on with its query, or is done with it. -/
theorem Inv.setClient {s : State} (hs : Inv s) (c : ClientTask)
    (hrequest : ∀ r, c.request = some r → s.client.request = some r)
    (hregistering : ∀ r, c = .registering r → AList.lookup r.query.key s.inFlight = none) :
    Inv { s with client := c } where
  client r hr := hs.client r (hrequest r hr)
  fresh r hr := hs.fresh r (hrequest r hr)
  leader := hs.leader
  registered := hs.registered
  registering := hregistering
  follower := hs.follower
  distinct := hs.distinct

/-- A new query gets the next number. -/
theorem Inv.addQuery {s : State} (hs : Inv s) (q : Query) (c : ClientTask)
    (hrequest : ∀ r, c.request = some r → r = ⟨s.queries.length, q⟩)
    (hregistering : ∀ r, c ≠ .registering r) :
    Inv { s with client := c, queries := s.queries ++ [q] } where
  client r hr := by
    rw [hrequest r hr]
    simp
  fresh r hr hmem := by
    have hlt := hs.number_lt hmem
    rw [hrequest r hr] at hlt
    exact hlt.false
  leader i l hl := ⟨getElem?_snoc_of_some (hs.leader i l hl).1, (hs.leader i l hl).2⟩
  registered := hs.registered
  registering r hr := absurd hr (hregistering r)
  follower j f hf := ⟨getElem?_snoc_of_some (hs.follower j f hf).1, (hs.follower j f hf).2⟩
  distinct := hs.distinct

theorem Inv.receiveDatagram {s : State} (hs : Inv s) (stripAaaa : Bool) (addr : SocketAddr)
    (packet : Bytes) (hclient : s.client = .receiving) :
    Inv (receiveDatagram stripAaaa s addr packet) := by
  unfold Doh.receiveDatagram
  by_cases hlen : packet.length < 12
  · simpa [hlen] using hs
  simp only [hlen, dif_neg, not_false_eq_true]
  have hq : Inv { s with queries := s.queries ++ [⟨addr, packet, Nat.le_of_not_lt hlen⟩] } :=
    (hs.addQuery ⟨addr, packet, Nat.le_of_not_lt hlen⟩ .receiving (by simp [ClientTask.request])
      (by simp)).congr hclient rfl rfl rfl rfl
  split_ifs
  · cases buildNodata packet with
    | none => exact hq
    | some resp =>
      apply hs.addQuery _ _ (by simp [ClientTask.request]) (by simp)
  · exact hs.addQuery _ _ (by simp [ClientTask.request]) (by simp)

theorem Inv.lookUp {s : State} (hs : Inv s) {request : Request} (now agedNow : Instant)
    (hclient : s.client = .lookingUp request) : Inv (lookUp s request now agedNow) := by
  have hrequest : s.client.request = some request := by rw [hclient]; rfl
  obtain ⟨_, h⟩ | ⟨cached, _, h⟩ := lookUp_cases s request now agedNow
  · rw [h]
    apply hs.setClient _ _ (by simp)
    rintro r ⟨⟩
    exact hrequest
  · rw [h]
    have hnext : ∀ r, (ClientTask.delivering (Reply.resolve ⟨request, .cached, cached⟩)).request =
        some r → s.client.request = some r := by
      rintro r ⟨⟩
      exact hrequest
    exact (hs.setClient _ hnext (by simp)).congr rfl rfl rfl rfl rfl

theorem Inv.tryJoin {s : State} (hs : Inv s) {request : Request}
    (hclient : s.client = .joining request) : Inv (tryJoin s request) := by
  have hrequest : s.client.request = some request := by rw [hclient]; rfl
  obtain ⟨hlookup, h⟩ | ⟨i, hlookup, h⟩ := tryJoin_cases s request
  · rw [h]
    apply hs.setClient
    · rintro r ⟨⟩
      exact hrequest
    · rintro r ⟨⟩
      exact hlookup
  · -- the leader has sent nothing yet, so the follower waits for its first message
    obtain ⟨l, hl, hkey, hphase⟩ := (hs.registered _ i).mp hlookup
    have hsent : l.sent = [] := (hs.leader i l hl).2.sent_eq_nil hphase
    rw [h, hl, Option.map_some, hsent, List.length_nil, Option.getD_some]
    exact
      { client := by simp [ClientTask.request]
        fresh := by simp [ClientTask.request]
        leader := hs.leader
        registered := hs.registered
        registering := by simp
        follower := by
          intro j f hf
          rcases getElem?_snoc_cases hf with hold | ⟨rfl, rfl⟩
          · exact hs.follower j f hold
          · exact ⟨(hs.client request hrequest).1, l, hl, hkey.symm, rfl, trivial⟩
        distinct := by
          have hnew := hs.fresh request hrequest
          simp only [State.numbers, List.map_append, List.map_cons, List.map_nil,
            ← List.append_assoc] at hnew ⊢
          exact List.nodup_append.mpr ⟨hs.distinct, by simp, by grind⟩ }

theorem Inv.register {s : State} (hs : Inv s) {request : Request}
    (hclient : s.client = .registering request) : Inv (register s request) := by
  have hrequest : s.client.request = some request := by rw [hclient]; rfl
  have hvacant := hs.registering request hclient
  exact
    { client := by simp [Doh.register, ClientTask.request]
      fresh := by simp [Doh.register, ClientTask.request]
      leader := by
        intro i l hl
        rcases getElem?_snoc_cases hl with hold | ⟨rfl, rfl⟩
        · exact hs.leader i l hold
        · exact ⟨(hs.client request hrequest).1, rfl, rfl⟩
      registered := by
        intro key i
        simp only [Doh.register]
        rw [HashMap.lookup_insert_eq]
        constructor
        · intro h
          split_ifs at h with hkey
          · obtain rfl := Option.some.inj h
            exact ⟨⟨request, .requesting, [], none⟩, by simp, hkey.symm, rfl⟩
          · obtain ⟨l, hl, hl'⟩ := (hs.registered key i).mp h
            exact ⟨l, getElem?_snoc_of_some hl, hl'⟩
        · rintro ⟨l, hl, hkey, hphase⟩
          rcases getElem?_snoc_cases hl with hold | ⟨rfl, rfl⟩
          · have hlookup := (hs.registered key i).mpr ⟨l, hold, hkey, hphase⟩
            have hne : key ≠ request.query.key := by
              rintro rfl
              rw [hvacant] at hlookup
              cases hlookup
            rw [if_neg hne, hlookup]
          · rw [if_pos hkey.symm]
      registering := by simp [Doh.register]
      follower := by
        intro j f hf
        obtain ⟨hquery, l, hl, hcoherent⟩ := hs.follower j f hf
        exact ⟨hquery, l, getElem?_snoc_of_some hl, hcoherent⟩
      distinct := by
        have hnew := hs.fresh request hrequest
        have hperm : (s.leaders.map (fun l => l.request.number) ++ [request.number] ++
            s.followers.map (fun f => f.request.number)).Perm (request.number :: s.numbers) := by
          rw [List.append_assoc]
          exact List.perm_middle
        simp only [Doh.register, State.numbers, List.map_append, List.map_cons, List.map_nil]
        exact hperm.nodup_iff.mpr (List.nodup_cons.mpr ⟨hnew, hs.distinct⟩) }

/-- What a follower has seen of its leader stays as long as the leader keeps its message. -/
theorem Follower.Coherent.mono {f : Follower} {l l' : Leader} (h : f.Coherent l)
    (hrequest : l'.request = l.request) (hphase : l.phase ≠ .finished)
    (hsent : l.sent = [] ∨ l'.sent = l.sent) : f.Coherent l' where
  key := by rw [hrequest]; exact h.key
  next := h.next
  phase := by
    have hold := h.phase
    cases hp : f.phase with
    | waiting => trivial
    | delivering d =>
      simp only [hp] at hold ⊢
      obtain ⟨hreq, hroute, data, hdata, hrest⟩ := hold
      obtain hnil | hsame := hsent
      · rw [hdata] at hnil
        cases hnil
      · exact ⟨hreq, hroute, data, hsame.trans hdata, hrest⟩
    | finished =>
      simp only [hp] at hold ⊢
      obtain ⟨data, hdata⟩ := hold
      obtain hnil | hsame := hsent
      · rw [hdata] at hnil
        cases hnil
      · exact ⟨data, hsame.trans hdata⟩
    | dropped =>
      simp only [hp] at hold
      exact absurd hold.1 hphase

/-- One completion task takes a step; its request stays, and so does what it sent. -/
theorem Inv.replaceLeader {s : State} (hs : Inv s) {i : ℕ} {l l' : Leader} (m : HashMap Bytes ℕ)
    (hl : s.leaders[i]? = some l) (hrequest : l'.request = l.request) (hcoherent : l'.Coherent)
    (hphase : l.phase ≠ .finished) (hsent : l.sent = [] ∨ l'.sent = l.sent)
    (hregistered : ∀ key k, AList.lookup key m = some k ↔ ∃ l'', (s.leaders.set i l')[k]? = some l'' ∧
      l''.request.query.key = key ∧ l''.phase.isRegistered = true)
    (hregistering : ∀ r, s.client = .registering r → AList.lookup r.query.key m = none) :
    Inv { s.setLeader i l' with inFlight := m } := by
  have hnumbers : (s.leaders.set i l').map (fun l => l.request.number) =
      s.leaders.map (fun l => l.request.number) := map_set_of_eq hl (by rw [hrequest])
  exact
    { client := hs.client
      fresh := by
        intro r hr
        simp only [State.numbers, State.setLeader, hnumbers]
        exact hs.fresh r hr
      leader := by
        intro k l'' hl''
        rcases getElem?_set_cases hl'' with ⟨rfl, rfl⟩ | ⟨_, hold⟩
        · rw [hrequest]
          exact ⟨(hs.leader k l hl).1, hcoherent⟩
        · exact hs.leader k l'' hold
      registered := hregistered
      registering := hregistering
      follower := by
        intro j f hf
        obtain ⟨hquery, l₀, hl₀, hf₀⟩ := hs.follower j f hf
        obtain ⟨l₁, hl₁, ⟨_, rfl, rfl⟩ | ⟨_, rfl⟩⟩ := exists_getElem?_set (a := l') hl hl₀
        · exact ⟨hquery, l₁, hl₁, hf₀.mono hrequest hphase hsent⟩
        · exact ⟨hquery, l₁, hl₁, hf₀⟩
      distinct := by
        simp only [State.numbers, State.setLeader, hnumbers]
        exact hs.distinct }

theorem Inv.setLeader {s : State} (hs : Inv s) {i : ℕ} {l l' : Leader}
    (hl : s.leaders[i]? = some l) (hrequest : l'.request = l.request) (hcoherent : l'.Coherent)
    (hphase : l.phase ≠ .finished) (hsent : l.sent = [] ∨ l'.sent = l.sent)
    (hregistered : l'.phase.isRegistered = l.phase.isRegistered) : Inv (s.setLeader i l') := by
  apply hs.replaceLeader s.inFlight hl hrequest hcoherent hphase hsent _ hs.registering
  intro key k
  rw [hs.registered key k]
  constructor
  · rintro ⟨l₀, hl₀, hkey, hp⟩
    obtain ⟨l₁, hl₁, ⟨_, rfl, rfl⟩ | ⟨_, rfl⟩⟩ := exists_getElem?_set (a := l') hl hl₀
    · exact ⟨l₁, hl₁, by rw [hrequest]; exact hkey, by rw [hregistered]; exact hp⟩
    · exact ⟨l₁, hl₁, hkey, hp⟩
  · rintro ⟨l₁, hl₁, hkey, hp⟩
    rcases getElem?_set_cases hl₁ with ⟨rfl, rfl⟩ | ⟨_, hold⟩
    · exact ⟨l, hl, by rw [← hrequest]; exact hkey, by rw [← hregistered]; exact hp⟩
    · exact ⟨l₁, hold, hkey, hp⟩

/-- `complete` removes the registration of the task itself. -/
theorem Inv.lookup_of_completing {s : State} (hs : Inv s) {i : ℕ} {l : Leader}
    (hl : s.leaders[i]? = some l) (hphase : l.phase.isRegistered = true) :
    AList.lookup l.request.query.key s.inFlight = some i :=
  (hs.registered _ i).mpr ⟨l, hl, rfl, hphase⟩

theorem Inv.completeLeader {s : State} (hs : Inv s) {i : ℕ} {l l' : Leader}
    (hl : s.leaders[i]? = some l) (hrequest : l'.request = l.request) (hcoherent : l'.Coherent)
    (hold : l.phase.isRegistered = true) (hnew : l'.phase.isRegistered = false) :
    Inv { s.setLeader i l' with inFlight := s.inFlight.erase l.request.query.key } := by
  have hfinished : l.phase ≠ .finished := by
    intro h
    rw [h] at hold
    cases hold
  have hown := hs.lookup_of_completing hl hold
  apply hs.replaceLeader _ hl hrequest hcoherent hfinished (.inl ((hs.leader i l hl).2.sent_eq_nil hold))
  · intro key k
    rw [HashMap.lookup_erase_eq]
    constructor
    · intro h
      split_ifs at h with hkey
      obtain ⟨l₀, hl₀, hkey₀, hp₀⟩ := (hs.registered key k).mp h
      obtain ⟨l₁, hl₁, ⟨_, rfl, rfl⟩ | ⟨_, rfl⟩⟩ := exists_getElem?_set (a := l') hl hl₀
      · exact absurd hkey₀.symm hkey
      · exact ⟨l₁, hl₁, hkey₀, hp₀⟩
    · rintro ⟨l₁, hl₁, hkey, hp⟩
      rcases getElem?_set_cases hl₁ with ⟨rfl, rfl⟩ | ⟨hne, hat⟩
      · rw [hnew] at hp
        cases hp
      · have hlookup := (hs.registered key k).mpr ⟨l₁, hat, hkey, hp⟩
        -- another task of the same key would be registered in its place
        have hkey' : key ≠ l.request.query.key := by
          rintro rfl
          exact hne (Option.some.inj (hlookup.symm.trans hown))
        rw [if_neg hkey', hlookup]
  · intro r hr
    rw [HashMap.lookup_erase_eq]
    split_ifs
    · rfl
    · exact hs.registering r hr

theorem Inv.setFollower {s : State} (hs : Inv s) {j : ℕ} {f f' : Follower} {l : Leader}
    (hf : s.followers[j]? = some f) (hrequest : f'.request = f.request)
    (hleader : f'.leader = f.leader) (hl : s.leaders[f.leader]? = some l) (hcoherent : f'.Coherent l) :
    Inv (s.setFollower j f') := by
  have hnumbers : (s.followers.set j f').map (fun f => f.request.number) =
      s.followers.map (fun f => f.request.number) := map_set_of_eq hf (by rw [hrequest])
  exact
    { client := hs.client
      fresh := by
        intro r hr
        simp only [State.numbers, State.setFollower, hnumbers]
        exact hs.fresh r hr
      leader := hs.leader
      registered := hs.registered
      registering := hs.registering
      follower := by
        intro k f'' hf''
        rcases getElem?_set_cases hf'' with ⟨rfl, rfl⟩ | ⟨_, hold⟩
        · rw [hrequest, hleader]
          exact ⟨(hs.follower k f hf).1, l, hl, hcoherent⟩
        · exact hs.follower k f'' hold
      distinct := by
        simp only [State.numbers, State.setFollower, hnumbers]
        exact hs.distinct }

/-- A follower receives the message of its leader, or finds that there is none to come. -/
theorem recv_cases (inFlight : HashMap Bytes ℕ) (i : ℕ) {l : Leader} (h : l.Coherent) :
    (∃ data, l.sent = [data] ∧ recv l.sent (l.isOpen inFlight i) 0 = .message data) ∨
      l.sent = [] ∧ (recv l.sent (l.isOpen inFlight i) 0 = .pending ∧ l.isOpen inFlight i = true ∨
        recv l.sent (l.isOpen inFlight i) 0 = .closed ∧ l.phase = .finished ∧ l.Silent) := by
  have hsent : l.sent = [] ∨ ∃ data, l.sent = [data] := by
    unfold Leader.Coherent at h
    cases hp : l.phase <;> simp only [hp] at h
    · exact .inl h.1
    · exact .inl h.1
    · exact .inl h.1
    · exact .inl h.1
    · exact .inr ⟨_, h.1⟩
    · obtain h | ⟨reply, h, _⟩ := h
      · exact .inl h.1
      · exact .inr ⟨_, h⟩
  obtain hnil | ⟨data, hdata⟩ := hsent
  · refine .inr ⟨hnil, ?_⟩
    cases hopen : l.isOpen inFlight i with
    | true => exact .inl ⟨by simp [recv, hnil], rfl⟩
    | false =>
      refine .inr ⟨by simp [recv, hnil], ?_⟩
      unfold Leader.Coherent at h
      unfold Leader.isOpen at hopen
      cases hp : l.phase <;> simp only [hp, Bool.true_or, Bool.false_or, reduceCtorEq] at hopen h
      obtain h | ⟨reply, h, _⟩ := h
      · exact ⟨rfl, h.2⟩
      · rw [hnil] at h
        cases h
  · exact .inl ⟨data, hdata, by simp [recv, hdata]⟩

theorem Inv.deliver {s : State} (hs : Inv s) {task : Task} {reply : Reply} {ips ips' : List IpAddr}
    (hd : s.delivery task = some ⟨reply, ips⟩) : Inv (s.deliver task (some ⟨reply, ips'⟩)) := by
  cases task with
  | client =>
    have hclient := delivery_client hd
    apply hs.setClient _ _ (by simp)
    rintro r ⟨⟩
    rw [hclient]
    rfl
  | leader i =>
    obtain ⟨request, sent, answer, hl⟩ := delivery_leader hd
    have hcoherent := (hs.leader i _ hl).2
    simp only [State.deliver, hl]
    exact hs.setLeader hl rfl hcoherent (by simp) (.inr rfl) rfl
  | follower j =>
    obtain ⟨request, leader, next, hf⟩ := delivery_follower hd
    obtain ⟨_, l, hl, hcoherent⟩ := hs.follower j _ hf
    simp only [State.deliver, hf]
    exact hs.setFollower hf rfl rfl hl ⟨hcoherent.key, hcoherent.next, hcoherent.phase⟩

theorem Inv.done {s : State} (hs : Inv s) {task : Task} {d : Delivery}
    (hd : s.delivery task = some d) : Inv (s.deliver task none) := by
  cases task with
  | client => exact hs.setClient .receiving (by simp [ClientTask.request]) (by simp)
  | leader i =>
    obtain ⟨request, sent, answer, hl⟩ := delivery_leader hd
    have hcoherent := (hs.leader i _ hl).2
    simp only [State.deliver, hl]
    exact hs.setLeader hl rfl (.inr ⟨d.reply, hcoherent⟩) (by simp) (.inr rfl) rfl
  | follower j =>
    obtain ⟨request, leader, next, hf⟩ := delivery_follower hd
    obtain ⟨_, l, hl, hcoherent⟩ := hs.follower j _ hf
    simp only [State.deliver, hf]
    obtain ⟨_, _, data, hdata, _⟩ := hcoherent.phase
    exact hs.setFollower hf rfl rfl hl ⟨hcoherent.key, hcoherent.next, ⟨data, hdata⟩⟩

theorem Inv.respond {s : State} (hs : Inv s) {i : ℕ} {request : Request} {sent : List Bytes}
    {answer : Option Outcome} (outcome : Outcome)
    (hl : s.leaders[i]? = some ⟨request, .requesting, sent, answer⟩) :
    Inv (s.setLeader i ⟨request, afterAnswer outcome, sent, some outcome⟩) := by
  have hsent : sent = [] := (hs.leader i _ hl).2.1
  cases outcome with
  | none => exact hs.setLeader hl rfl ⟨hsent, rfl⟩ (by simp) (.inr rfl) rfl
  | some response =>
    dsimp only [afterAnswer]
    split_ifs with hips
    · exact hs.setLeader hl rfl ⟨hsent, rfl, hips⟩ (by simp) (.inr rfl) rfl
    · exact hs.setLeader hl rfl ⟨hsent, rfl⟩ (by simp) (.inr rfl) rfl

/-- What is broadcast behind `complete` is the answer, or the SERVFAIL of a request that
failed. -/
theorem Inv.complete {s : State} (hs : Inv s) {i : ℕ} {request : Request} {outcome : Outcome}
    {sent : List Bytes} {answer : Option Outcome}
    (hl : s.leaders[i]? = some ⟨request, .completing outcome, sent, answer⟩) :
    Inv { s.setLeader i ⟨request, afterComplete request outcome, sent, answer⟩ with
      inFlight := s.inFlight.erase request.query.key } := by
  obtain ⟨hsent, hanswer⟩ := (hs.leader i _ hl).2
  cases outcome with
  | some response => exact hs.completeLeader hl rfl ⟨hsent, rfl, .inl ⟨rfl, hanswer⟩⟩ rfl rfl
  | none =>
    unfold afterComplete
    cases hservfail : buildServfail request.query.packet with
    | none => exact hs.completeLeader hl rfl (.inl ⟨hsent, hanswer, hservfail⟩) rfl rfl
    | some servfail =>
      exact hs.completeLeader hl rfl ⟨hsent, rfl, .inr ⟨rfl, hanswer, hservfail⟩⟩ rfl rfl

/-- What a follower receives was broadcast by its leader. -/
theorem Inv.receiveMessage {s : State} (hs : Inv s) {j : ℕ} {f : Follower} {l : Leader}
    {data : Bytes} (hf : s.followers[j]? = some f) (hl : s.leaders[f.leader]? = some l)
    (hdata : recv l.sent (l.isOpen s.inFlight f.leader) f.next = .message data) :
    Inv (s.setFollower j { f with phase := .delivering (Reply.resolve
      ⟨f.request, .coalesced, restoreTxId data f.request.query.txId⟩) }) := by
  obtain ⟨_, l', hl', hcoherent⟩ := hs.follower j f hf
  obtain rfl := Option.some.inj (hl.symm.trans hl')
  rw [hcoherent.next] at hdata
  obtain ⟨data', hsent, hrecv⟩ | ⟨_, ⟨hrecv, _⟩ | ⟨hrecv, _⟩⟩ :=
    recv_cases s.inFlight f.leader (hs.leader _ l hl).2
  · rw [hrecv] at hdata
    obtain rfl := Recv.message.inj hdata
    exact hs.setFollower hf rfl rfl hl
      ⟨hcoherent.key, hcoherent.next, rfl, rfl, _, hsent, rfl⟩
  · rw [hrecv] at hdata
    cases hdata
  · rw [hrecv] at hdata
    cases hdata

/-- A follower without a message is dropped behind its leader. -/
theorem Inv.receiveClosed {s : State} (hs : Inv s) {j : ℕ} {f : Follower} {l : Leader}
    (hf : s.followers[j]? = some f) (hl : s.leaders[f.leader]? = some l)
    (hmessage : ∀ data, recv l.sent (l.isOpen s.inFlight f.leader) f.next ≠ .message data)
    (hpending : recv l.sent (l.isOpen s.inFlight f.leader) f.next ≠ .pending) :
    Inv (s.setFollower j { f with phase := .dropped }) := by
  obtain ⟨_, l', hl', hcoherent⟩ := hs.follower j f hf
  obtain rfl := Option.some.inj (hl.symm.trans hl')
  rw [hcoherent.next] at hmessage hpending
  obtain ⟨data, _, hrecv⟩ | ⟨hnil, ⟨hrecv, _⟩ | ⟨_, hfinished, _⟩⟩ :=
    recv_cases s.inFlight f.leader (hs.leader _ l hl).2
  · exact absurd hrecv (hmessage data)
  · exact absurd hrecv hpending
  · exact hs.setFollower hf rfl rfl hl ⟨hcoherent.key, hcoherent.next, hfinished, hnil⟩

theorem Inv.step {stripAaaa : Bool} {s t : State} {a : Action} (hs : Inv s)
    (h : step stripAaaa s a = some t) : Inv t := by
  cases a with
  | datagram addr packet =>
    obtain ⟨hclient, rfl⟩ := step_datagram h
    exact hs.receiveDatagram stripAaaa addr packet hclient
  | clientError =>
    obtain rfl := step_clientError h
    exact hs.setClient .stopped (by simp [ClientTask.request]) (by simp)
  | lookup now agedNow =>
    obtain ⟨request, hclient, rfl⟩ := step_lookup h
    exact hs.lookUp now agedNow hclient
  | join =>
    obtain ⟨request, hclient, rfl⟩ := step_join h
    exact hs.tryJoin hclient
  | register =>
    obtain ⟨request, hclient, rfl⟩ := step_register h
    exact hs.register hclient
  | respond i outcome =>
    obtain ⟨request, sent, answer, hl, rfl⟩ := step_respond h
    exact hs.respond outcome hl
  | put i now clock order =>
    obtain ⟨request, response, sent, answer, hl, rfl⟩ := step_put h
    obtain ⟨hsent, hanswer, _⟩ := (hs.leader i _ hl).2
    have hset : Inv (s.setLeader i ⟨request, .completing (some response), sent, answer⟩) :=
      hs.setLeader hl rfl ⟨hsent, hanswer⟩ (by simp) (.inr rfl) rfl
    exact hset.congr rfl rfl rfl rfl rfl
  | complete i =>
    obtain ⟨request, outcome, sent, answer, hl, rfl⟩ := step_complete h
    exact hs.complete hl
  | broadcast i =>
    obtain ⟨request, reply, sent, answer, hl, rfl⟩ := step_broadcast h
    obtain ⟨hsent, hannounces⟩ := (hs.leader i _ hl).2
    have hnil : sent = [] := hsent
    subst hnil
    unfold afterBroadcast
    cases reply.route <;>
      exact hs.setLeader hl rfl ⟨rfl, hannounces⟩ (by simp) (.inl rfl) rfl
  | receive j =>
    obtain ⟨f, l, hf, _, hl, ⟨data, hdata, rfl⟩ | ⟨hmessage, hpending, rfl⟩⟩ := step_receive h
    · exact hs.receiveMessage hf hl hdata
    · exact hs.receiveClosed hf hl hmessage hpending
  | row task now evictNow order =>
    obtain ⟨reply, ip, ips, hd, rfl⟩ := step_row h
    exact (hs.deliver hd).congr rfl rfl rfl rfl rfl
  | send task ok =>
    obtain ⟨reply, hd, rfl⟩ := step_send h
    exact (hs.done hd).congr rfl rfl rfl rfl rfl

theorem inv_of_run {stripAaaa : Bool} {table : DnsTable} {acts : List Action} {s : State}
    (h : (system stripAaaa table).run acts = some s) : Inv s :=
  System.run_induction (P := fun _ s => Inv s) (inv_initial table)
    (fun _ _ _ _ _ hs hstep => hs.step hstep) acts s h

end TransProxy.Dns.Doh
