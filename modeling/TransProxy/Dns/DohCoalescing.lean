import TransProxy.Library.Fairness
import TransProxy.Dns.DohCache

/-!
# Coalesced queries

A query that joins a request listens to a completion task that has not broadcast yet,
and that task broadcasts before it ends, or ends without an answer to give. So no
waiter is left behind as long as tasks are scheduled and requests end.
-/
namespace TransProxy.Dns.Doh
open Library Net

/-- The awaits and lock sections of a task. A request is one of them: the HTTP client gives
up on it after ten seconds. -/
def Moves : Task → Set Action
  | .client => {a | (∃ addr packet, a = .datagram addr packet) ∨ a = .clientError ∨
      (∃ now agedNow, a = .lookup now agedNow) ∨ a = .join ∨ a = .register ∨
        (∃ now evictNow order, a = .row .client now evictNow order) ∨ ∃ ok, a = .send .client ok}
  | .leader i => {a | (∃ outcome, a = .respond i outcome) ∨
      (∃ now clock order, a = .put i now clock order) ∨ a = .complete i ∨ a = .broadcast i ∨
        (∃ now evictNow order, a = .row (.leader i) now evictNow order) ∨
          ∃ ok, a = .send (.leader i) ok}
  | .follower j => {a | a = .receive j ∨
      (∃ now evictNow order, a = .row (.follower j) now evictNow order) ∨
        ∃ ok, a = .send (.follower j) ok}

def Follows (i j : ℕ) (s : State) : Prop :=
  ∃ f, s.followers[j]? = some f ∧ f.leader = i

/-- The phases of the leader and of the follower that are left until the follower has
received. -/
def rank (i j : ℕ) (s : State) : ℕ :=
  match s.followers[j]? with
  | some ⟨_, _, _, .waiting⟩ =>
    (s.leaders[i]?.map (fun l => l.phase.remaining)).getD 0 + 1
  | _ => 0

section Rank
variable {i j : ℕ} {s t : State} {f : Follower} {l : Leader}

theorem rank_waiting (hf : s.followers[j]? = some f) (hphase : f.phase = .waiting)
    (hl : s.leaders[i]? = some l) : rank i j s = l.phase.remaining + 1 := by
  obtain ⟨_, _, _, _⟩ := f
  dsimp only at hphase
  subst hphase
  simp [rank, hf, hl]

theorem rank_of_ne_waiting (hf : s.followers[j]? = some f) (hphase : f.phase ≠ .waiting) :
    rank i j s = 0 := by
  obtain ⟨_, _, _, phase⟩ := f
  cases phase with
  | waiting => exact absurd rfl hphase
  | delivering d => simp [rank, hf]
  | finished => simp [rank, hf]
  | dropped => simp [rank, hf]

theorem Grows.rank_le (h : Grows s t) (hs : Inv s) (hfollows : Follows i j s) :
    Follows i j t ∧ rank i j t ≤ rank i j s := by
  obtain ⟨f, hf, rfl⟩ := hfollows
  obtain ⟨f', hf', _, hleader, _, hwaiting⟩ := h.follower j f hf
  refine ⟨⟨f', hf', hleader⟩, ?_⟩
  obtain ⟨_, l, hl, _⟩ := hs.follower j f hf
  obtain ⟨l', hl', _, _, _, _, hremaining⟩ := h.leader _ l hl
  by_cases hphase : f.phase = .waiting
  · rw [rank_waiting hf hphase hl]
    by_cases hphase' : f'.phase = .waiting
    · rw [rank_waiting hf' hphase' hl']
      omega
    · rw [rank_of_ne_waiting hf' hphase']
      omega
  · rw [rank_of_ne_waiting hf' (hwaiting hphase)]
    exact Nat.zero_le _

def group (i j : ℕ) : ℕ → Set Action
  | 1 => Moves (.follower j)
  | _ => Moves (.leader i)

/-- A follower of a leader that has nothing left to broadcast receives. -/
theorem Inv.recv_ne_pending (hs : Inv s) (hl : s.leaders[i]? = some l)
    (hremaining : l.phase.remaining = 0) : recv l.sent (l.isOpen s.inFlight i) 0 ≠ .pending := by
  intro hpending
  have hcoherent := (hs.leader i l hl).2
  obtain ⟨data, _, hrecv⟩ | ⟨hnil, ⟨_, hopen⟩ | ⟨hrecv, _⟩⟩ := recv_cases s.inFlight i hcoherent
  · rw [hrecv] at hpending
    cases hpending
  · unfold Leader.Coherent at hcoherent
    cases hp : l.phase <;> simp only [hp, LeaderPhase.remaining, reduceCtorEq] at hremaining hcoherent
    · rw [hnil] at hcoherent
      cases hcoherent.1
    · -- a finished task holds no sender, and neither does the registry
      have hregistry : AList.lookup l.request.query.key s.inFlight ≠ some i := by
        intro hlookup
        obtain ⟨l', hl', _, hphase⟩ := (hs.registered _ i).mp hlookup
        obtain rfl := Option.some.inj (hl'.symm.trans hl)
        rw [hp] at hphase
        cases hphase
      simp [Leader.isOpen, hp, hregistry] at hopen
  · rw [hrecv] at hpending
    cases hpending

theorem exists_waiting (hfollows : Follows i j s) (hs : Inv s) (hpos : 0 < rank i j s) :
    ∃ f l, s.followers[j]? = some f ∧ f.phase = .waiting ∧ f.leader = i ∧ f.next = 0 ∧
      s.leaders[i]? = some l ∧ rank i j s = l.phase.remaining + 1 := by
  obtain ⟨f, hf, rfl⟩ := hfollows
  obtain ⟨_, l, hl, hcoherent⟩ := hs.follower j f hf
  have hphase : f.phase = .waiting := by
    by_contra hne
    rw [rank_of_ne_waiting hf hne] at hpos
    exact absurd hpos (Nat.lt_irrefl 0)
  exact ⟨f, l, hf, hphase, rfl, hcoherent.next, hl, rank_waiting hf hphase hl⟩

variable {stripAaaa : Bool} {table : DnsTable} {a : Action}

/-- The step of the leader that is next, or the one of the follower behind it. -/
theorem enabled_of_rank (hs : Inv s) (hfollows : Follows i j s) (hpos : 0 < rank i j s) :
    (system stripAaaa table).Enabled (group i j (rank i j s)) s := by
  obtain ⟨⟨request, leader, next, phase⟩, l, hf, hphase, hleader, hnext, hl, hrank⟩ :=
    exists_waiting hfollows hs hpos
  dsimp only at hphase hleader hnext
  subst hphase hleader hnext
  rw [hrank]
  obtain ⟨request', phase, sent, answer⟩ := l
  cases phase with
  | requesting =>
    refine ⟨.respond leader none, .inl ⟨none, rfl⟩, ?_⟩
    simp [system, step, hl]
  | storing response =>
    refine ⟨.put leader 0 (fun _ => 0) .stored, .inr (.inl ⟨_, _, _, rfl⟩), ?_⟩
    simp [system, step, hl]
  | completing outcome =>
    refine ⟨.complete leader, .inr (.inr (.inl rfl)), ?_⟩
    simp [system, step, hl]
  | broadcasting reply =>
    refine ⟨.broadcast leader, .inr (.inr (.inr (.inl rfl))), ?_⟩
    simp [system, step, hl]
  | delivering d =>
    refine ⟨.receive j, .inl rfl, ?_⟩
    have hrecv := hs.recv_ne_pending hl rfl
    simp only [system, step, hf, receive, hl]
    split
    · next h => exact absurd h hrecv
    · rfl
    · rfl
  | finished =>
    refine ⟨.receive j, .inl rfl, ?_⟩
    have hrecv := hs.recv_ne_pending hl rfl
    simp only [system, step, hf, receive, hl]
    split
    · next h => exact absurd h hrecv
    · rfl
    · rfl

theorem rank_lt_of_step (hs : Inv s) (hfollows : Follows i j s) (hpos : 0 < rank i j s)
    (ha : a ∈ group i j (rank i j s)) (h : step stripAaaa s a = some t) :
    rank i j t < rank i j s := by
  obtain ⟨f, l, hf, hphase, hleader, hnext, hl, hrank⟩ := exists_waiting hfollows hs hpos
  obtain ⟨f', hf', _⟩ := (grows_of_step hs h).follower j f hf
  rw [hrank] at ha ⊢
  -- the leader moves on, whatever becomes of the follower
  have hmoves : ∀ l', t.leaders[i]? = some l' → l'.phase.remaining < l.phase.remaining →
      rank i j t < l.phase.remaining + 1 := by
    intro l' hl' hlt
    by_cases hphase' : f'.phase = .waiting
    · rw [rank_waiting hf' hphase' hl']
      omega
    · rw [rank_of_ne_waiting hf' hphase']
      omega
  by_cases hzero : l.phase.remaining = 0
  · rw [hzero] at ha ⊢
    rcases ha with rfl | ⟨now, evictNow, order, rfl⟩ | ⟨ok, rfl⟩
    · obtain ⟨f₁, _, hf₁, _, _, ⟨data, _, rfl⟩ | ⟨_, _, rfl⟩⟩ := step_receive h
      · rw [rank_of_ne_waiting (getElem?_set_of_eq_some hf₁) (by simp)]
        exact Nat.zero_lt_one
      · rw [rank_of_ne_waiting (getElem?_set_of_eq_some hf₁) (by simp)]
        exact Nat.zero_lt_one
    · obtain ⟨reply, ip, ips, hd, _⟩ := step_row h
      obtain ⟨request, leader, next, hf₁⟩ := delivery_follower hd
      obtain rfl := Option.some.inj (hf.symm.trans hf₁)
      cases hphase
    · obtain ⟨reply, hd, _⟩ := step_send h
      obtain ⟨request, leader, next, hf₁⟩ := delivery_follower hd
      obtain rfl := Option.some.inj (hf.symm.trans hf₁)
      cases hphase
  · have ha : a ∈ Moves (.leader i) := by
      obtain ⟨k, hk⟩ := Nat.exists_eq_succ_of_ne_zero hzero
      rw [hk] at ha
      exact ha
    rcases ha with ⟨outcome, rfl⟩ | ⟨now, clock, order, rfl⟩ | rfl | rfl |
      ⟨now, evictNow, order, rfl⟩ | ⟨ok, rfl⟩
    · obtain ⟨request, sent, answer, hl₁, rfl⟩ := step_respond h
      obtain rfl := Option.some.inj (hl.symm.trans hl₁)
      exact hmoves _ (getElem?_set_of_eq_some hl) (remaining_afterAnswer outcome)
    · obtain ⟨request, response, sent, answer, hl₁, rfl⟩ := step_put h
      obtain rfl := Option.some.inj (hl.symm.trans hl₁)
      exact hmoves _ (getElem?_set_of_eq_some hl) (by simp [LeaderPhase.remaining])
    · obtain ⟨request, outcome, sent, answer, hl₁, rfl⟩ := step_complete h
      obtain rfl := Option.some.inj (hl.symm.trans hl₁)
      exact hmoves _ (getElem?_set_of_eq_some hl) (remaining_afterComplete request outcome)
    · obtain ⟨request, reply, sent, answer, hl₁, rfl⟩ := step_broadcast h
      obtain rfl := Option.some.inj (hl.symm.trans hl₁)
      exact hmoves _ (getElem?_set_of_eq_some hl)
        (by rw [remaining_afterBroadcast]; exact Nat.zero_lt_one)
    · obtain ⟨reply, ip, ips, hd, _⟩ := step_row h
      obtain ⟨request, sent, answer, hl₁⟩ := delivery_leader hd
      obtain rfl := Option.some.inj (hl.symm.trans hl₁)
      exact absurd rfl hzero
    · obtain ⟨reply, hd, _⟩ := step_send h
      obtain ⟨request, sent, answer, hl₁⟩ := delivery_leader hd
      obtain rfl := Option.some.inj (hl.symm.trans hl₁)
      exact absurd rfl hzero

/-- Only `recv` takes a follower from where it waits. -/
theorem follower_eq_of_step (hf : s.followers[j]? = some f) (hphase : f.phase = .waiting)
    (h : step stripAaaa s a = some t) : t.followers[j]? = some f ∨ a = .receive j := by
  have hdeliver : ∀ task d d', s.delivery task = some d →
      (s.deliver task d').followers[j]? = some f := by
    intro task d d' hd
    cases task with
    | client => exact hf
    | leader k =>
      obtain ⟨request, sent, answer, hl⟩ := delivery_leader hd
      simp only [State.deliver, hl]
      exact hf
    | follower k =>
      obtain ⟨request, leader, next, hk⟩ := delivery_follower hd
      have hne : k ≠ j := by
        rintro rfl
        obtain rfl := Option.some.inj (hf.symm.trans hk)
        cases hphase
      simp only [State.deliver, hk, State.setFollower]
      rw [List.getElem?_set_ne hne]
      exact hf
  cases a with
  | datagram addr packet =>
    obtain ⟨_, rfl⟩ := step_datagram h
    obtain ⟨client, queries, heq⟩ := exists_receiveDatagram_eq s stripAaaa addr packet
    rw [heq]
    exact .inl hf
  | clientError =>
    obtain rfl := step_clientError h
    exact .inl hf
  | lookup now agedNow =>
    obtain ⟨request, _, rfl⟩ := step_lookup h
    left
    obtain ⟨_, h⟩ | ⟨_, _, h⟩ := lookUp_cases s request now agedNow <;> rw [h] <;> exact hf
  | join =>
    obtain ⟨request, _, rfl⟩ := step_join h
    left
    obtain ⟨_, h⟩ | ⟨k, _, h⟩ := tryJoin_cases s request
    · rw [h]
      exact hf
    · rw [h]
      exact getElem?_snoc_of_some hf
  | register =>
    obtain ⟨request, _, rfl⟩ := step_register h
    exact .inl hf
  | respond k outcome =>
    obtain ⟨request, sent, answer, _, rfl⟩ := step_respond h
    exact .inl hf
  | put k now clock order =>
    obtain ⟨request, response, sent, answer, _, rfl⟩ := step_put h
    exact .inl hf
  | complete k =>
    obtain ⟨request, outcome, sent, answer, _, rfl⟩ := step_complete h
    exact .inl hf
  | broadcast k =>
    obtain ⟨request, reply, sent, answer, _, rfl⟩ := step_broadcast h
    exact .inl hf
  | receive k =>
    by_cases hk : k = j
    · exact .inr (by rw [hk])
    · obtain ⟨f₁, l₁, hf₁, _, _, ⟨data, _, rfl⟩ | ⟨_, _, rfl⟩⟩ := step_receive h
      · exact .inl (by rw [State.setFollower, List.getElem?_set_ne hk]; exact hf)
      · exact .inl (by rw [State.setFollower, List.getElem?_set_ne hk]; exact hf)
  | row task now evictNow order =>
    obtain ⟨reply, ip, ips, hd, rfl⟩ := step_row h
    exact .inl (hdeliver task _ _ hd)
  | send task ok =>
    obtain ⟨reply, hd, rfl⟩ := step_send h
    exact .inl (hdeliver task _ _ hd)

end Rank

/-- What a follower has when it is done waiting: the reply that its leader announces, under
its own ID, or an error because its leader has none to announce. -/
def Received (j : ℕ) (f : Follower) (s : State) : Prop :=
  ∃ f' l, s.followers[j]? = some f' ∧ f'.request = f.request ∧ s.leaders[f.leader]? = some l ∧
    l.request.query.key = f.request.query.key ∧
      ((∃ d reply, f'.phase = .delivering d ∧ l.Announces reply ∧ d.reply.request = f.request ∧
          d.reply.data = restoreTxId reply.data f.request.query.txId) ∨
        f'.phase = .dropped ∧ l.Silent)

section Run
variable {stripAaaa : Bool} {table : DnsTable}

theorem received_of_receive {s t : State} {j : ℕ} {f : Follower} (hs : Inv s)
    (hf : s.followers[j]? = some f) (h : step stripAaaa s (.receive j) = some t) :
    Received j f t := by
  have ht := hs.step h
  obtain ⟨f₁, l₁, hf₁, _, _, hcases⟩ := step_receive h
  obtain rfl := Option.some.inj (hf₁.symm.trans hf)
  obtain ⟨data, _, rfl⟩ | ⟨_, _, rfl⟩ := hcases
  · have hf' := getElem?_set_of_eq_some (a := { f₁ with phase := .delivering (Reply.resolve
      ⟨f₁.request, .coalesced, restoreTxId data f₁.request.query.txId⟩) }) hf
    obtain ⟨_, l, hl, hcoherent⟩ := ht.follower j _ hf'
    obtain ⟨_, _, data', hsent, hdata⟩ := hcoherent.phase
    obtain ⟨reply, rfl, hannounces⟩ := (ht.leader _ l hl).2.announces hsent
    exact ⟨_, l, hf', rfl, hl, hcoherent.key.symm, .inl ⟨_, reply, rfl, hannounces, rfl, hdata⟩⟩
  · have hf' := getElem?_set_of_eq_some (a := { f₁ with phase := .dropped }) hf
    obtain ⟨_, l, hl, hcoherent⟩ := ht.follower j _ hf'
    obtain ⟨hfinished, hnil⟩ := hcoherent.phase
    have hleader := (ht.leader _ l hl).2
    unfold Leader.Coherent at hleader
    simp only [hfinished] at hleader
    obtain ⟨_, hsilent⟩ | ⟨reply, hsent, _⟩ := hleader
    · exact ⟨_, l, hf', rfl, hl, hcoherent.key.symm, .inr ⟨rfl, hsilent⟩⟩
    · rw [hnil] at hsent
      cases hsent

/-- A follower does not wait forever. -/
theorem eventually_received (e : (system stripAaaa table).Execution)
    (hfair : ∀ task, task ≠ .client → e.WeaklyFair (Moves task)) {n j : ℕ} {f : Follower}
    (hf : (e.state n).followers[j]? = some f) (hphase : f.phase = .waiting) :
    ∃ m, n ≤ m ∧ Received j f (e.state m) := by
  have hinv : ∀ s, (system stripAaaa table).Reachable s → Inv s := fun s ⟨acts, hacts⟩ =>
    inv_of_run hacts
  obtain ⟨m, hm, hzero⟩ := e.eventually_rank_zero (P := Follows f.leader j) (rank f.leader j)
    (group f.leader j)
    (fun k => by
      match k with
      | 0 => exact hfair (.leader f.leader) (by simp)
      | 1 => exact hfair (.follower j) (by simp)
      | k + 2 => exact hfair (.leader f.leader) (by simp))
    (fun s a t hs hfollows h => (grows_of_step (hinv s hs) h).rank_le (hinv s hs) hfollows)
    (fun s hs hfollows hpos => enabled_of_rank (hinv s hs) hfollows hpos)
    (fun s a t hs hfollows hpos ha h => rank_lt_of_step (hinv s hs) hfollows hpos ha h)
    (n := n) ⟨f, hf, rfl⟩
  have hleft : ¬ (e.state m).followers[j]? = some f := by
    intro hstill
    obtain ⟨_, l, hl, _⟩ := (hinv _ (e.reachable m)).follower j f hstill
    rw [rank_waiting hstill hphase hl] at hzero
    cases hzero
  obtain ⟨k, a, hk, hfk, _, hstep, hnot⟩ :=
    e.exists_step_of_not (P := fun s => s.followers[j]? = some f) hm hf hleft
  rcases follower_eq_of_step hfk hphase hstep with hsame | rfl
  · exact absurd hsame hnot
  · have hstep : step stripAaaa (e.state k) (.receive j) = some (e.state (k + 1)) := hstep
    exact ⟨k + 1, by omega, received_of_receive (hinv _ (e.reachable k)) hfk hstep⟩

/-- What holds of the requests in flight and of the replies at any time. -/
structure Coalesces (stripAaaa : Bool) (s : State) : Prop where
  /-- One request upstream for a key. -/
  outstanding : ∀ (i k : ℕ) (l l' : Leader), s.leaders[i]? = some l → s.leaders[k]? = some l' →
    l.phase = .requesting → l'.phase = .requesting → l.request.query.key = l'.request.query.key →
      i = k
  /-- `complete` removes the registration of the task that calls it and no other. -/
  complete : ∀ i t, step stripAaaa s (.complete i) = some t →
    ∃ l, s.leaders[i]? = some l ∧ AList.lookup l.request.query.key s.inFlight = some i ∧
      ∀ key, AList.lookup key t.inFlight =
        if key = l.request.query.key then none else AList.lookup key s.inFlight
  /-- The replies are to queries received, no two to one of them. -/
  query : ∀ r ∈ s.sent, s.queries[r.request.number]? = some r.request.query
  once : (s.sent.map (fun r => r.request.number)).Nodup

theorem coalesces_of_run {acts : List Action} {s : State}
    (h : (system stripAaaa table).run acts = some s) : Coalesces stripAaaa s where
  outstanding i k l l' hl hl' hphase hphase' hkey := by
    have hs := inv_of_run h
    have hi := hs.lookup_of_completing hl (by rw [hphase]; rfl)
    have hk := hs.lookup_of_completing hl' (by rw [hphase']; rfl)
    rw [hkey, hk] at hi
    exact (Option.some.inj hi).symm
  complete i t ht := by
    obtain ⟨request, outcome, sent, answer, hl, rfl⟩ := step_complete ht
    refine ⟨_, hl, (inv_of_run h).lookup_of_completing hl rfl, ?_⟩
    intro key
    rw [HashMap.lookup_erase_eq]
  query r hr := ((sentInv_of_run h).sent r hr).2.1
  once := (sentInv_of_run h).nodup

/-- Coalescing strands no waiter. -/
theorem coalescing_strands_no_waiter (stripAaaa : Bool) (table : DnsTable) :
    (∀ acts s, (system stripAaaa table).run acts = some s → Coalesces stripAaaa s) ∧
      ∀ e : (system stripAaaa table).Execution,
        (∀ task, task ≠ .client → e.WeaklyFair (Moves task)) →
          ∀ (n j : ℕ) (f : Follower), (e.state n).followers[j]? = some f → f.phase = .waiting →
            ∃ m, n ≤ m ∧ Received j f (e.state m) :=
  ⟨fun _ _ h => coalesces_of_run h, fun e hfair _ _ _ hf hphase => eventually_received e hfair hf hphase⟩

end Run

/-- Where every task is done, none of them is due. -/
theorem not_enabled_of_finished {stripAaaa : Bool} {table : DnsTable} {s : State}
    (hleaders : ∀ l ∈ s.leaders, l.phase = .finished)
    (hfollowers : ∀ f ∈ s.followers, f.phase = .finished) {task : Task} (htask : task ≠ .client) :
    ¬ (system stripAaaa table).Enabled (Moves task) s := by
  have hleader : ∀ (i : ℕ) (l : Leader), s.leaders[i]? = some l → l.phase = .finished :=
    fun i l hl => hleaders l (List.mem_of_getElem? hl)
  have hfollower : ∀ (j : ℕ) (f : Follower), s.followers[j]? = some f → f.phase = .finished :=
    fun j f hf => hfollowers f (List.mem_of_getElem? hf)
  rintro ⟨a, ha, hsome⟩
  obtain ⟨t, h⟩ := Option.isSome_iff_exists.mp hsome
  have h : step stripAaaa s a = some t := h
  cases task with
  | client => exact htask rfl
  | leader i =>
    rcases ha with ⟨outcome, rfl⟩ | ⟨now, clock, order, rfl⟩ | rfl | rfl |
      ⟨now, evictNow, order, rfl⟩ | ⟨ok, rfl⟩
    · obtain ⟨_, _, _, hl, _⟩ := step_respond h
      cases hleader i _ hl
    · obtain ⟨_, _, _, _, hl, _⟩ := step_put h
      cases hleader i _ hl
    · obtain ⟨_, _, _, _, hl, _⟩ := step_complete h
      cases hleader i _ hl
    · obtain ⟨_, _, _, _, hl, _⟩ := step_broadcast h
      cases hleader i _ hl
    · obtain ⟨_, _, _, hd, _⟩ := step_row h
      obtain ⟨_, _, _, hl⟩ := delivery_leader hd
      cases hleader i _ hl
    · obtain ⟨_, hd, _⟩ := step_send h
      obtain ⟨_, _, _, hl⟩ := delivery_leader hd
      cases hleader i _ hl
  | follower j =>
    rcases ha with rfl | ⟨now, evictNow, order, rfl⟩ | ⟨ok, rfl⟩
    · obtain ⟨f, _, hf, hphase, _⟩ := step_receive h
      rw [hfollower j f hf] at hphase
      cases hphase
    · obtain ⟨_, _, _, hd, _⟩ := step_row h
      obtain ⟨_, _, _, hf⟩ := delivery_follower hd
      cases hfollower j _ hf
    · obtain ⟨_, hd, _⟩ := step_send h
      obtain ⟨_, _, _, hf⟩ := delivery_follower hd
      cases hfollower j _ hf

/-- The second query joins the request of the first. -/
def sampleJoin : List Action :=
  [.datagram sampleClient (sampleQuery 0x12 0x34), .lookup 0 0, .join, .register,
    .datagram sampleClient (sampleQuery 0xAB 0xCD), .lookup 0 0, .join]

/-- The server answers, and both are sent its answer. -/
def sampleBroadcast : List Action :=
  [.respond 0 (some (sampleAnswer 0x12 0x34)), .put 0 0 (fun _ => 0) .stored, .complete 0,
    .broadcast 0, .receive 0, .row (.leader 0) 0 0 .stored, .send (.leader 0) true,
    .row (.follower 0) 0 0 .stored, .send (.follower 0) true]

def FollowerPhase.isWaiting : FollowerPhase → Bool
  | .waiting => true
  | _ => false

def FollowerPhase.isFinished : FollowerPhase → Bool
  | .finished => true
  | _ => false

def LeaderPhase.isFinished : LeaderPhase → Bool
  | .finished => true
  | _ => false

theorem coalescing_strands_no_waiter_sample :
    ∃ e : (system false ∅).Execution, (∀ task, task ≠ .client → e.WeaklyFair (Moves task)) ∧
      ∃ f, (e.state 7).followers[0]? = some f ∧ f.phase = .waiting ∧
        ∃ m, 7 ≤ m ∧ Received 0 f (e.state m) := by
  have hjoin : ((system false ∅).run sampleJoin).map
      (fun s => s.followers.map (fun f => f.phase.isWaiting)) = some [true] := by
    decide
  have hall : ((system false ∅).run (sampleJoin ++ sampleBroadcast)).map
      (fun s => (s.leaders.all (fun l => l.phase.isFinished),
        s.followers.all (fun f => f.phase.isFinished))) = some (true, true) := by
    decide +kernel
  obtain ⟨s, hs, hwaiting⟩ := Option.map_eq_some_iff.mp hjoin
  obtain ⟨t, ht, hfinished⟩ := Option.map_eq_some_iff.mp hall
  obtain ⟨hleaders, hfollowers⟩ := Prod.mk.inj hfinished
  obtain ⟨f, hf, hphase⟩ : ∃ f, s.followers[0]? = some f ∧ f.phase.isWaiting = true := by
    have hat := congrArg (fun xs => xs[0]?) hwaiting
    simp only [List.getElem?_map] at hat
    exact Option.map_eq_some_iff.mp hat
  have hstate : (System.Execution.ofRun ht).state 7 = s := System.Execution.state_ofRun ht hs
  have hfair : ∀ task, task ≠ .client → (System.Execution.ofRun ht).WeaklyFair (Moves task) := by
    intro task htask
    apply System.Execution.weaklyFair_ofRun ht (not_enabled_of_finished _ _ htask)
    · intro l hl
      have hl := List.all_eq_true.mp hleaders l hl
      cases hp : l.phase <;> simp [hp, LeaderPhase.isFinished] at hl ⊢
    · intro f hf
      have hf := List.all_eq_true.mp hfollowers f hf
      cases hp : f.phase <;> simp [hp, FollowerPhase.isFinished] at hf ⊢
  have hwaits : f.phase = .waiting := by
    cases hp : f.phase <;> simp [hp, FollowerPhase.isWaiting] at hphase ⊢
  rw [← hstate] at hf
  exact ⟨_, hfair, f, hf, hwaits,
    (coalescing_strands_no_waiter false ∅).2 _ hfair 7 0 f hf hwaits⟩

end TransProxy.Dns.Doh
