import TransProxy.Dns.DohSafety

/-!
# Who answered what

A task that is done stays as it is, so that every datagram sent can be traced to the
task that sent it, and no two of them to one query.
-/
namespace TransProxy.Dns.Doh
open Library Net

/-- How many awaits and lock sections are left until the reply is broadcast. -/
def LeaderPhase.remaining : LeaderPhase → ℕ
  | .requesting => 4
  | .storing _ => 3
  | .completing _ => 2
  | .broadcasting _ => 1
  | .delivering _ => 0
  | .finished => 0

theorem remaining_afterAnswer (outcome : Outcome) : (afterAnswer outcome).remaining < 4 := by
  cases outcome with
  | none => simp [afterAnswer, LeaderPhase.remaining]
  | some response =>
    dsimp only [afterAnswer]
    split_ifs <;> simp [LeaderPhase.remaining]

theorem remaining_afterComplete (request : Request) (outcome : Outcome) :
    (afterComplete request outcome).remaining < 2 := by
  cases outcome with
  | none =>
    dsimp only [afterComplete]
    cases buildServfail request.query.packet <;> simp [LeaderPhase.remaining]
  | some response => simp [afterComplete, LeaderPhase.remaining]

theorem remaining_afterBroadcast (reply : Reply) : (afterBroadcast reply).remaining = 0 := by
  dsimp only [afterBroadcast]
  cases reply.route <;> rfl

/-- What a later state still says of the tasks and the history of an earlier one. -/
structure Grows (s t : State) : Prop where
  leader : ∀ (i : ℕ) (l : Leader), s.leaders[i]? = some l → ∃ l', t.leaders[i]? = some l' ∧
    l'.request = l.request ∧ (l.phase = .finished → l' = l) ∧ (l.sent ≠ [] → l'.sent = l.sent) ∧
      (∀ o, l.answer = some o → l'.answer = some o) ∧ l'.phase.remaining ≤ l.phase.remaining
  follower : ∀ (j : ℕ) (f : Follower), s.followers[j]? = some f → ∃ f', t.followers[j]? = some f' ∧
    f'.request = f.request ∧ f'.leader = f.leader ∧ (f.phase = .finished → f' = f) ∧
      (f.phase ≠ .waiting → f'.phase ≠ .waiting)
  numbers : ∀ n ∈ t.numbers, n ∈ s.numbers ∨ ∃ r, s.client.request = some r ∧ r.number = n
  client : ∀ r, t.client.request = some r →
    s.client.request = some r ∨ s.queries.length ≤ r.number
  queries : ∀ (n : ℕ) (q : Query), s.queries[n]? = some q → t.queries[n]? = some q
  hits : ∀ h ∈ s.hits, h ∈ t.hits

theorem Grows.of_same {s t : State} (hleaders : t.leaders = s.leaders)
    (hfollowers : t.followers = s.followers)
    (hclient : ∀ r, t.client.request = some r →
      s.client.request = some r ∨ s.queries.length ≤ r.number)
    (hqueries : ∀ (n : ℕ) (q : Query), s.queries[n]? = some q → t.queries[n]? = some q)
    (hhits : ∀ h ∈ s.hits, h ∈ t.hits) :
    Grows s t where
  leader i l hl := ⟨l, by rw [hleaders, hl], rfl, fun _ => rfl, fun _ => rfl, fun _ ho => ho, Nat.le_refl _⟩
  follower j f hf := ⟨f, by rw [hfollowers, hf], rfl, rfl, fun _ => rfl, id⟩
  numbers n hn := by
    rw [State.numbers, hleaders, hfollowers] at hn
    exact .inl hn
  client := hclient
  queries := hqueries
  hits := hhits

theorem Grows.setLeader {s : State} {i : ℕ} {l l' : Leader} (hl : s.leaders[i]? = some l)
    (hrequest : l'.request = l.request) (hphase : l.phase ≠ .finished)
    (hsent : l.sent ≠ [] → l'.sent = l.sent) (hanswer : ∀ o, l.answer = some o → l'.answer = some o)
    (hremaining : l'.phase.remaining ≤ l.phase.remaining) : Grows s (s.setLeader i l') where
  leader k m hm := by
    obtain ⟨m', hm', ⟨rfl, rfl, rfl⟩ | ⟨_, rfl⟩⟩ := exists_getElem?_set (a := l') hl hm
    · exact ⟨_, hm', hrequest, fun h => absurd h hphase, hsent, hanswer, hremaining⟩
    · exact ⟨_, hm', rfl, fun _ => rfl, fun _ => rfl, fun _ ho => ho, Nat.le_refl _⟩
  follower j f hf := ⟨f, hf, rfl, rfl, fun _ => rfl, id⟩
  numbers n hn := by
    have hsame : (s.leaders.set i l').map (fun l => l.request.number) =
        s.leaders.map (fun l => l.request.number) := map_set_of_eq hl (by rw [hrequest])
    simp only [State.numbers, State.setLeader, hsame] at hn
    exact .inl hn
  client r hr := .inl hr
  queries _ _ hq := hq
  hits h hh := hh

theorem Grows.setFollower {s : State} {j : ℕ} {f f' : Follower} (hf : s.followers[j]? = some f)
    (hrequest : f'.request = f.request) (hleader : f'.leader = f.leader)
    (hphase : f.phase ≠ .finished) (hwaiting : f.phase ≠ .waiting → f'.phase ≠ .waiting) :
    Grows s (s.setFollower j f') where
  leader i l hl := ⟨l, hl, rfl, fun _ => rfl, fun _ => rfl, fun _ ho => ho, Nat.le_refl _⟩
  follower k m hm := by
    obtain ⟨m', hm', ⟨rfl, rfl, rfl⟩ | ⟨_, rfl⟩⟩ := exists_getElem?_set (a := f') hf hm
    · exact ⟨_, hm', hrequest, hleader, fun h => absurd h hphase, hwaiting⟩
    · exact ⟨_, hm', rfl, rfl, fun _ => rfl, id⟩
  numbers n hn := by
    have hsame : (s.followers.set j f').map (fun f => f.request.number) =
        s.followers.map (fun f => f.request.number) := map_set_of_eq hf (by rw [hrequest])
    simp only [State.numbers, State.setFollower, hsame] at hn
    exact .inl hn
  client r hr := .inl hr
  queries _ _ hq := hq
  hits h hh := hh

/-- The fields that `Grows` does not look at may change as they like. -/
theorem Grows.congr {s t u : State} (h : Grows s t) (hleaders : u.leaders = t.leaders)
    (hfollowers : u.followers = t.followers) (hclient : u.client = t.client)
    (hqueries : u.queries = t.queries) (hhits : u.hits = t.hits) : Grows s u := by
  obtain ⟨_, _, _, _, _, _, _, _, _, _⟩ := t
  obtain ⟨_, _, _, _, _, _, _, _, _, _⟩ := u
  subst hclient hleaders hfollowers hqueries hhits
  exact ⟨h.leader, h.follower, h.numbers, h.client, h.queries, h.hits⟩

theorem grows_deliver {s : State} {task : Task} {d : Delivery} (d' : Option Delivery)
    (hrequest : ∀ e, d' = some e → e.reply.request = d.reply.request)
    (hd : s.delivery task = some d) : Grows s (s.deliver task d') := by
  cases task with
  | client =>
    have hnext : ∀ r, ((d'.map ClientTask.delivering).getD .receiving).request = some r →
        s.client.request = some r ∨ s.queries.length ≤ r.number := by
      intro r hr
      rw [delivery_client hd]
      cases d' with
      | none => cases hr
      | some e =>
        rw [Option.map_some, Option.getD_some, ClientTask.request, hrequest e rfl] at hr
        exact .inl hr
    exact Grows.of_same rfl rfl hnext (fun _ _ hq => hq) (fun _ hh => hh)
  | leader i =>
    obtain ⟨request, sent, answer, hl⟩ := delivery_leader hd
    simp only [State.deliver, hl]
    exact Grows.setLeader hl rfl (by simp) (fun _ => rfl) (fun _ ho => ho)
      (by cases d' <;> exact Nat.le_refl _)
  | follower j =>
    obtain ⟨request, leader, next, hf⟩ := delivery_follower hd
    simp only [State.deliver, hf]
    exact Grows.setFollower hf rfl rfl (by simp) (fun _ => by cases d' <;> simp)

theorem grows_receiveDatagram (s : State) (stripAaaa : Bool) (addr : SocketAddr) (packet : Bytes) :
    Grows s (receiveDatagram stripAaaa s addr packet) := by
  dsimp only [receiveDatagram]
  split_ifs with hlen hstrip
  · exact Grows.of_same rfl rfl (fun r hr => .inl hr) (fun _ _ hq => hq) (fun _ hh => hh)
  · cases buildNodata packet with
    | none =>
      exact Grows.of_same rfl rfl (fun r hr => .inl hr)
        (fun _ _ hq => getElem?_snoc_of_some hq) (fun _ hh => hh)
    | some resp =>
      refine Grows.of_same rfl rfl ?_ (fun _ _ hq => getElem?_snoc_of_some hq) (fun _ hh => hh)
      rintro r ⟨⟩
      exact .inr (Nat.le_refl _)
  · refine Grows.of_same rfl rfl ?_ (fun _ _ hq => getElem?_snoc_of_some hq) (fun _ hh => hh)
    rintro r ⟨⟩
    exact .inr (Nat.le_refl _)

theorem grows_lookUp {s : State} {request : Request} (now agedNow : Instant)
    (hclient : s.client = .lookingUp request) : Grows s (lookUp s request now agedNow) := by
  have hrequest : s.client.request = some request := by rw [hclient]; rfl
  obtain ⟨_, h⟩ | ⟨cached, _, h⟩ := lookUp_cases s request now agedNow
  · rw [h]
    refine Grows.of_same rfl rfl ?_ (fun _ _ hq => hq) (fun _ hh => hh)
    rintro r ⟨⟩
    exact .inl hrequest
  · rw [h]
    refine Grows.of_same rfl rfl ?_ (fun _ _ hq => hq) (fun _ hh => List.mem_append_left _ hh)
    rintro r ⟨⟩
    exact .inl hrequest

theorem grows_tryJoin {s : State} {request : Request} (hclient : s.client = .joining request) :
    Grows s (tryJoin s request) := by
  have hrequest : s.client.request = some request := by rw [hclient]; rfl
  obtain ⟨_, h⟩ | ⟨i, _, h⟩ := tryJoin_cases s request
  · rw [h]
    refine Grows.of_same rfl rfl ?_ (fun _ _ hq => hq) (fun _ hh => hh)
    rintro r ⟨⟩
    exact .inl hrequest
  · rw [h]
    exact
      { leader := fun i l hl => ⟨l, hl, rfl, fun _ => rfl, fun _ => rfl, fun _ ho => ho, Nat.le_refl _⟩
        follower := fun j f hf => ⟨f, getElem?_snoc_of_some hf, rfl, rfl, fun _ => rfl, id⟩
        numbers := by
          intro n hn
          simp only [State.numbers, List.map_append, List.map_cons, List.map_nil,
            ← List.append_assoc, List.mem_append, List.mem_singleton] at hn ⊢
          obtain hold | rfl := hn
          · exact .inl hold
          · exact .inr ⟨request, hrequest, rfl⟩
        client := by simp [ClientTask.request]
        queries _ _ hq := hq
        hits := fun h hh => hh }

theorem grows_register {s : State} {request : Request} (hclient : s.client = .registering request) :
    Grows s (register s request) where
  leader i l hl := ⟨l, getElem?_snoc_of_some hl, rfl, fun _ => rfl, fun _ => rfl, fun _ ho => ho, Nat.le_refl _⟩
  follower j f hf := ⟨f, hf, rfl, rfl, fun _ => rfl, id⟩
  numbers n hn := by
    simp only [State.numbers, register, List.map_append, List.map_cons, List.map_nil,
      List.mem_append, List.mem_singleton] at hn ⊢
    obtain (hold | rfl) | hold := hn
    · exact .inl (.inl hold)
    · exact .inr ⟨request, by rw [hclient]; rfl, rfl⟩
    · exact .inl (.inr hold)
  client := by simp [register, ClientTask.request]
  queries _ _ hq := hq
  hits h hh := hh

theorem grows_of_step {stripAaaa : Bool} {s t : State} {a : Action} (hs : Inv s)
    (h : step stripAaaa s a = some t) : Grows s t := by
  cases a with
  | datagram addr packet =>
    obtain ⟨_, rfl⟩ := step_datagram h
    exact grows_receiveDatagram s stripAaaa addr packet
  | clientError =>
    obtain rfl := step_clientError h
    exact Grows.of_same rfl rfl (by simp [ClientTask.request]) (fun _ _ hq => hq) (fun _ hh => hh)
  | lookup now agedNow =>
    obtain ⟨request, hclient, rfl⟩ := step_lookup h
    exact grows_lookUp now agedNow hclient
  | join =>
    obtain ⟨request, hclient, rfl⟩ := step_join h
    exact grows_tryJoin hclient
  | register =>
    obtain ⟨request, hclient, rfl⟩ := step_register h
    exact grows_register hclient
  | respond i outcome =>
    obtain ⟨request, sent, answer, hl, rfl⟩ := step_respond h
    have hanswer : answer = none := (hs.leader i _ hl).2.2
    exact Grows.setLeader hl rfl (by simp) (fun _ => rfl) (by simp [hanswer])
      (Nat.le_of_lt (remaining_afterAnswer outcome))
  | put i now clock order =>
    obtain ⟨request, response, sent, answer, hl, rfl⟩ := step_put h
    have hset : Grows s (s.setLeader i ⟨request, .completing (some response), sent, answer⟩) :=
      Grows.setLeader hl rfl (by simp) (fun _ => rfl) (fun _ ho => ho) (by simp [LeaderPhase.remaining])
    exact hset.congr rfl rfl rfl rfl rfl
  | complete i =>
    obtain ⟨request, outcome, sent, answer, hl, rfl⟩ := step_complete h
    have hset : Grows s (s.setLeader i ⟨request, afterComplete request outcome, sent, answer⟩) :=
      Grows.setLeader hl rfl (by simp) (fun _ => rfl) (fun _ ho => ho)
        (Nat.le_of_lt (remaining_afterComplete request outcome))
    exact hset.congr rfl rfl rfl rfl rfl
  | broadcast i =>
    obtain ⟨request, reply, sent, answer, hl, rfl⟩ := step_broadcast h
    have hnil : sent = [] := (hs.leader i _ hl).2.1
    exact Grows.setLeader hl rfl (by simp) (fun hne => absurd hnil hne) (fun _ ho => ho)
      (by rw [remaining_afterBroadcast]; exact Nat.zero_le _)
  | receive j =>
    obtain ⟨f, l, hf, hphase, _, ⟨data, _, rfl⟩ | ⟨_, _, rfl⟩⟩ := step_receive h
    · exact Grows.setFollower hf rfl rfl (by simp [hphase]) (by simp)
    · exact Grows.setFollower hf rfl rfl (by simp [hphase]) (by simp)
  | row task now evictNow order =>
    obtain ⟨reply, ip, ips, hd, rfl⟩ := step_row h
    exact (grows_deliver _ (by rintro e ⟨⟩; rfl) hd).congr rfl rfl rfl rfl rfl
  | send task ok =>
    obtain ⟨reply, hd, rfl⟩ := step_send h
    exact (grows_deliver none (by simp) hd).congr rfl rfl rfl rfl rfl

/-- A leader that goes on keeps its answer. -/
theorem answer_of_set {leaders : List Leader} {i k : ℕ} {l l' m : Leader} {o : Outcome}
    (hl : leaders[k]? = some l) (hl' : (leaders.set k m)[i]? = some l') (ho : l'.answer = some o)
    (hanswer : m.answer = l.answer) : ∃ l, leaders[i]? = some l ∧ l.answer = some o := by
  rcases getElem?_set_cases hl' with ⟨rfl, rfl⟩ | ⟨_, hold⟩
  · exact ⟨l, hl, by rw [← hanswer, ho]⟩
  · exact ⟨l', hold, ho⟩

theorem answer_of_deliver {s : State} {task : Task} {d : Option Delivery} {i : ℕ} {l' : Leader}
    {o : Outcome} (hl' : (s.deliver task d).leaders[i]? = some l') (ho : l'.answer = some o) :
    ∃ l, s.leaders[i]? = some l ∧ l.answer = some o := by
  cases task with
  | client => exact ⟨l', hl', ho⟩
  | leader k =>
    cases hl : s.leaders[k]? with
    | none =>
      simp only [State.deliver, hl] at hl'
      exact ⟨l', hl', ho⟩
    | some l =>
      simp only [State.deliver, hl] at hl'
      exact answer_of_set hl hl' ho rfl
  | follower j =>
    cases hf : s.followers[j]? with
    | none =>
      simp only [State.deliver, hf] at hl'
      exact ⟨l', hl', ho⟩
    | some f =>
      simp only [State.deliver, hf] at hl'
      exact ⟨l', hl', ho⟩

/-- An answer is there since the request ended. -/
theorem answer_of_step {stripAaaa : Bool} {s t : State} {a : Action} {i : ℕ} {l' : Leader}
    {o : Outcome} (h : step stripAaaa s a = some t) (hl' : t.leaders[i]? = some l')
    (ho : l'.answer = some o) :
    a = .respond i o ∨ ∃ l, s.leaders[i]? = some l ∧ l.answer = some o := by
  have hsame : t.leaders = s.leaders → ∃ l, s.leaders[i]? = some l ∧ l.answer = some o := by
    intro heq
    exact ⟨l', by rw [← heq, hl'], ho⟩
  cases a with
  | datagram addr packet =>
    obtain ⟨_, rfl⟩ := step_datagram h
    right
    apply hsame
    dsimp only [receiveDatagram]
    split_ifs
    · rfl
    · cases buildNodata packet <;> rfl
    · rfl
  | clientError =>
    obtain rfl := step_clientError h
    exact .inr (hsame rfl)
  | lookup now agedNow =>
    obtain ⟨request, _, rfl⟩ := step_lookup h
    right
    apply hsame
    obtain ⟨_, h⟩ | ⟨_, _, h⟩ := lookUp_cases s request now agedNow <;> rw [h]
  | join =>
    obtain ⟨request, _, rfl⟩ := step_join h
    right
    apply hsame
    obtain ⟨_, h⟩ | ⟨_, _, h⟩ := tryJoin_cases s request <;> rw [h]
  | register =>
    obtain ⟨request, _, rfl⟩ := step_register h
    rcases getElem?_snoc_cases hl' with hold | ⟨_, rfl⟩
    · exact .inr ⟨l', hold, ho⟩
    · cases ho
  | respond k outcome =>
    obtain ⟨request, sent, answer, hl, rfl⟩ := step_respond h
    rcases getElem?_set_cases hl' with ⟨rfl, rfl⟩ | ⟨_, hold⟩
    · exact .inl (by rw [Option.some.inj ho])
    · exact .inr ⟨l', hold, ho⟩
  | put k now clock order =>
    obtain ⟨request, response, sent, answer, hl, rfl⟩ := step_put h
    exact .inr (answer_of_set hl hl' ho rfl)
  | complete k =>
    obtain ⟨request, outcome, sent, answer, hl, rfl⟩ := step_complete h
    exact .inr (answer_of_set hl hl' ho rfl)
  | broadcast k =>
    obtain ⟨request, reply, sent, answer, hl, rfl⟩ := step_broadcast h
    exact .inr (answer_of_set hl hl' ho rfl)
  | receive j =>
    obtain ⟨f, l, _, _, _, ⟨data, _, rfl⟩ | ⟨_, _, rfl⟩⟩ := step_receive h
    · exact .inr (hsame rfl)
    · exact .inr (hsame rfl)
  | row task now evictNow order =>
    obtain ⟨reply, ip, ips, _, rfl⟩ := step_row h
    exact .inr (answer_of_deliver hl' ho)
  | send task ok =>
    obtain ⟨reply, _, rfl⟩ := step_send h
    exact .inr (answer_of_deliver hl' ho)

end TransProxy.Dns.Doh
