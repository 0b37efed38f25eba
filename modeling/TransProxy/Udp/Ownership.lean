import TransProxy.Udp.Session

/-!
# Which session the map belongs to

The lock section at the end of a task removes the entry of its key, whichever
session the entry is of. Where it never meets the entry of another session, an
entry goes with its own session only, and an open session can always be reached.
-/
namespace TransProxy.Udp
open Library Net Dns Tunnel

def payloadOf (key : SessionKey) : Action → List Bytes
  | .dispatch client origDst payload => if (client, origDst) = key then [payload] else []
  | _ => []

def payloadsFor (key : SessionKey) (acts : List Action) : List Bytes :=
  acts.flatMap (payloadOf key)

/-- What the map owes to the sessions, in the course of a run. -/
structure Ownership (proxy : UpstreamProxy) (now : Instant) (table : DnsTable)
    (acts : List Action) : Prop where
  /-- An entry is removed by its own task, or by a dispatch that cannot send to it. -/
  removed : ∀ s act t, (system proxy now table).Takes acts s act t → ∀ key i,
    s.map.lookup key = some i → t.map.lookup key ≠ some i →
      act = .remove i ∨ ∃ payload, act = .dispatch key.1 key.2 payload ∧ s.isOpen i = false
  /-- An open session has its sender in the map. -/
  held : ∀ s, (system proxy now table).Visits acts s → ∀ i session,
    s.sessions[i]? = some session → session.phase.isOpen = true →
      s.map.lookup session.key = some i
  /-- As long as a session is open, all datagrams of its flow go into its channel. -/
  reached : ∀ before later after s t, acts = before ++ later ++ after →
    (system proxy now table).run before = some s →
      (system proxy now table).runFrom s later = some t → ∀ (i : ℕ) (session session' : Session),
        s.sessions[i]? = some session → t.sessions[i]? = some session' →
          session'.phase.isOpen = true →
            session'.inbox = session.inbox ++ payloadsFor session.key later

/-- The entry under the key of the session, if there is one, is its own. -/
def OwnEntry (s : State) (i : ℕ) : Prop := ∀ session, s.sessions[i]? = some session →
  ∀ j, s.map.lookup session.key = some j → j = i

def Keyed (s : State) : Prop := ∀ key i, s.map.lookup key = some i →
  ∃ session, s.sessions[i]? = some session ∧ session.key = key

def Held (s : State) : Prop := ∀ i session, s.sessions[i]? = some session →
  session.phase.isOpen = true → s.map.lookup session.key = some i

section Step
variable {proxy : UpstreamProxy} {s t : State} {act : Action} {client origDst : SocketAddr}
  {payload : Bytes}

theorem isOpen_eq {i : ℕ} {session : Session} (h : s.sessions[i]? = some session) :
    s.isOpen i = session.phase.isOpen := by
  simp [State.isOpen, h]

/-- A dispatch sends, removes an entry whose session is closed, or spawns. -/
theorem dispatch_cases (s : State) (client origDst : SocketAddr) (payload : Bytes) :
    (∃ i, s.map.lookup (client, origDst) = some i ∧ s.isOpen i = true ∧
      s.dispatch client origDst payload =
        { s with sessions := s.sessions.modify i (·.push payload) }) ∨
    (∃ i, s.map.lookup (client, origDst) = some i ∧ s.isOpen i = false ∧
      s.dispatch client origDst payload = { s with map := s.map.erase (client, origDst) }) ∨
    (s.map.lookup (client, origDst) = none ∧ s.dispatch client origDst payload =
      { s with
        map := s.map.insert (client, origDst) s.sessions.length
        sessions := s.sessions ++ [.spawn (client, origDst) payload] }) := by
  cases hlookup : s.map.lookup (client, origDst) with
  | none => simp [State.dispatch, hlookup]
  | some i =>
    cases hopen : s.isOpen i with
    | true => simp [State.dispatch, hlookup, hopen]
    | false => simp [State.dispatch, hlookup, hopen]

theorem step_session_iff {i : ℕ} {act : SessionAction} :
    State.step proxy s (.session i act) = some t ↔ ∃ session session',
      s.sessions[i]? = some session ∧ session.step proxy
        (decide (s.map.lookup session.key = some i)) s.table s.now act = some session' ∧
          { s with sessions := s.sessions.set i session' } = t := by
  cases hsession : s.sessions[i]? with
  | none => simp [State.step, hsession]
  | some session => simp [State.step, hsession]

theorem step_remove_iff {i : ℕ} :
    State.step proxy s (.remove i) = some t ↔ ∃ session,
      s.sessions[i]? = some session ∧ session.phase = .returned ∧
        { s with
          map := s.map.erase session.key
          sessions := s.sessions.set i { session with phase := .finished } } = t := by
  cases hsession : s.sessions[i]? with
  | none => simp [State.step, hsession]
  | some session => cases hphase : session.phase <;> simp [State.step, hsession, hphase]

/-- What a step makes of a session. -/
structure Follows (s : State) (act : Action) (session session' : Session) : Prop where
  key : session'.key = session.key
  isOpen : session'.phase.isOpen = true → session.phase.isOpen = true
  inbox : Keyed s → Held s → session'.phase.isOpen = true →
    session'.inbox = session.inbox ++ payloadOf session.key act

theorem follows_self {session : Session}
    (h : Held s → session.phase.isOpen = true → payloadOf session.key act = []) :
    Follows s act session session :=
  ⟨rfl, id, fun _ hheld hopen => by simp [h hheld hopen]⟩

theorem follows_of_continues {session session' : Session} (h : session.Continues session')
    (hact : payloadOf session.key act = []) : Follows s act session session' :=
  ⟨h.key, h.isOpen, fun _ _ hopen => by simp [h.inbox hopen, hact]⟩

/-- Where an open session has its entry, a dispatch to another entry is of another flow. -/
theorem payloadOf_dispatch_of_lookup_ne {i : ℕ} {session : Session} (hheld : Held s)
    (hsession : s.sessions[i]? = some session) (hopen : session.phase.isOpen = true)
    (h : s.map.lookup (client, origDst) ≠ some i) :
    payloadOf session.key (.dispatch client origDst payload) = [] := by
  apply if_neg
  intro hkey
  rw [hkey] at h
  exact h (hheld i session hsession hopen)

theorem follows_dispatch {i : ℕ} {session : Session} (hsession : s.sessions[i]? = some session) :
    ∃ session', (s.dispatch client origDst payload).sessions[i]? = some session' ∧
      Follows s (.dispatch client origDst payload) session session' := by
  rcases dispatch_cases s client origDst payload with ⟨j, hj, _, hs⟩ | ⟨j, hj, hclosed, hs⟩ |
    ⟨hnone, hs⟩
  · by_cases hij : j = i
    · subst hij
      refine ⟨session.push payload, by simp [hs, hsession], rfl, id, fun hkeyed _ _ => ?_⟩
      obtain ⟨session', hsession', hkey⟩ := hkeyed _ _ hj
      obtain rfl := Option.some.inj (hsession.symm.trans hsession')
      simp [payloadOf, hkey]
    · refine ⟨session, by simp [hs, hsession, hij], follows_self fun hheld hopen => ?_⟩
      exact payloadOf_dispatch_of_lookup_ne hheld hsession hopen (by simp [hj, hij])
  · refine ⟨session, by simp [hs, hsession], follows_self fun hheld hopen => ?_⟩
    apply payloadOf_dispatch_of_lookup_ne hheld hsession hopen
    rw [hj]
    intro heq
    obtain rfl := Option.some.inj heq
    rw [isOpen_eq hsession, hopen] at hclosed
    cases hclosed
  · have hlt := (List.getElem?_eq_some_iff.mp hsession).1
    refine ⟨session, ?_, follows_self fun hheld hopen => ?_⟩
    · simp [hs, List.getElem?_append_left hlt, hsession]
    · exact payloadOf_dispatch_of_lookup_ne hheld hsession hopen (by simp [hnone])

/-- No session is forgotten, and each step makes of it what the action says. -/
theorem follows_of_step (h : State.step proxy s act = some t) {i : ℕ} {session : Session}
    (hsession : s.sessions[i]? = some session) :
    ∃ session', t.sessions[i]? = some session' ∧ Follows s act session session' := by
  cases act with
  | tick d =>
    cases h
    exact ⟨session, hsession, follows_self fun _ _ => rfl⟩
  | setTable table =>
    cases h
    exact ⟨session, hsession, follows_self fun _ _ => rfl⟩
  | dispatch client origDst payload =>
    cases h
    exact follows_dispatch hsession
  | session j act =>
    obtain ⟨old, new, hold, hstep, rfl⟩ := step_session_iff.mp h
    by_cases hij : j = i
    · subst hij
      obtain rfl := Option.some.inj (hsession.symm.trans hold)
      have hlt := (List.getElem?_eq_some_iff.mp hsession).1
      refine ⟨new, by simp [hlt], ?_⟩
      exact follows_of_continues (Session.continues_step hstep) rfl
    · exact ⟨session, by simp [hij, hsession], follows_self fun _ _ => rfl⟩
  | remove j =>
    obtain ⟨old, hold, hphase, rfl⟩ := step_remove_iff.mp h
    by_cases hij : j = i
    · subst hij
      obtain rfl := Option.some.inj (hsession.symm.trans hold)
      have hlt := (List.getElem?_eq_some_iff.mp hsession).1
      refine ⟨{ session with phase := .finished }, by simp [hlt], rfl, ?_, ?_⟩
      · intro hopen
        cases hopen
      · intro _ _ hopen
        cases hopen
    · exact ⟨session, by simp [hij, hsession], follows_self fun _ _ => rfl⟩

theorem Keyed.step (hs : Keyed s) (h : State.step proxy s act = some t) : Keyed t := by
  intro key i hlookup
  have hkeep : s.map.lookup key = some i →
      ∃ session, t.sessions[i]? = some session ∧ session.key = key := by
    intro hold
    obtain ⟨session, hsession, hkey⟩ := hs key i hold
    obtain ⟨session', hsession', hfollows⟩ := follows_of_step h hsession
    exact ⟨session', hsession', hfollows.key.trans hkey⟩
  cases act with
  | tick d =>
    cases h
    exact hkeep hlookup
  | setTable table =>
    cases h
    exact hkeep hlookup
  | dispatch client origDst payload =>
    obtain rfl := Option.some.inj h
    rcases dispatch_cases s client origDst payload with ⟨j, _, _, hs'⟩ | ⟨j, _, _, hs'⟩ |
      ⟨_, hs'⟩
    · rw [hs'] at hlookup
      exact hkeep hlookup
    · rw [hs', HashMap.lookup_erase_eq] at hlookup
      split_ifs at hlookup
      exact hkeep hlookup
    · rw [hs', HashMap.lookup_insert_eq] at hlookup
      split_ifs at hlookup with heq
      · cases hlookup
        exact ⟨.spawn (client, origDst) payload, by simp [hs'], heq.symm⟩
      · exact hkeep hlookup
  | session j act =>
    obtain ⟨_, _, _, _, rfl⟩ := step_session_iff.mp h
    exact hkeep hlookup
  | remove j =>
    obtain ⟨_, _, _, rfl⟩ := step_remove_iff.mp h
    rw [HashMap.lookup_erase_eq] at hlookup
    split_ifs at hlookup
    exact hkeep hlookup

/-- Entries that the step of a task takes away are its own, or of a closed session. -/
theorem removed_of_step (hown : ∀ i, act = .remove i → OwnEntry s i)
    (h : State.step proxy s act = some t) {key : SessionKey} {i : ℕ}
    (hbefore : s.map.lookup key = some i) (hafter : t.map.lookup key ≠ some i) :
    act = .remove i ∨ ∃ payload, act = .dispatch key.1 key.2 payload ∧ s.isOpen i = false := by
  cases act with
  | tick d =>
    cases h
    exact absurd hbefore hafter
  | setTable table =>
    cases h
    exact absurd hbefore hafter
  | dispatch client origDst payload =>
    obtain rfl := Option.some.inj h
    rcases dispatch_cases s client origDst payload with ⟨j, _, _, hs⟩ | ⟨j, hj, hclosed, hs⟩ |
      ⟨hnone, hs⟩
    · rw [hs] at hafter
      exact absurd hbefore hafter
    · rw [hs, HashMap.lookup_erase_eq] at hafter
      split_ifs at hafter with hkey
      · subst hkey
        obtain rfl := Option.some.inj (hbefore.symm.trans hj)
        exact .inr ⟨payload, rfl, hclosed⟩
      · exact absurd hbefore hafter
    · rw [hs, HashMap.lookup_insert_eq] at hafter
      split_ifs at hafter with hkey
      · subst hkey
        rw [hnone] at hbefore
        cases hbefore
      · exact absurd hbefore hafter
  | session j act =>
    obtain ⟨_, _, _, _, rfl⟩ := step_session_iff.mp h
    exact absurd hbefore hafter
  | remove j =>
    obtain ⟨session, hsession, _, rfl⟩ := step_remove_iff.mp h
    rw [HashMap.lookup_erase_eq] at hafter
    split_ifs at hafter with hkey
    · subst hkey
      obtain rfl := hown j rfl session hsession i hbefore
      exact .inl rfl
    · exact absurd hbefore hafter

/-- A new session is entered into the map at once. -/
theorem lookup_of_spawned (h : State.step proxy s act = some t) {i : ℕ} {session : Session}
    (hnew : s.sessions[i]? = none) (hsession : t.sessions[i]? = some session) :
    t.map.lookup session.key = some i := by
  have hle := List.getElem?_eq_none_iff.mp hnew
  have hlt := (List.getElem?_eq_some_iff.mp hsession).1
  cases act with
  | tick d =>
    cases h
    exact absurd hlt (Nat.not_lt.mpr hle)
  | setTable table =>
    cases h
    exact absurd hlt (Nat.not_lt.mpr hle)
  | dispatch client origDst payload =>
    obtain rfl := Option.some.inj h
    rcases dispatch_cases s client origDst payload with ⟨j, _, _, hs⟩ | ⟨j, _, _, hs⟩ | ⟨_, hs⟩
    · simp only [hs, List.length_modify] at hlt
      exact absurd hlt (Nat.not_lt.mpr hle)
    · simp only [hs] at hlt
      exact absurd hlt (Nat.not_lt.mpr hle)
    · rw [hs] at hsession ⊢
      rw [List.getElem?_append_right hle, List.getElem?_singleton] at hsession
      split_ifs at hsession with hi
      cases hsession
      obtain rfl : i = s.sessions.length := by omega
      simp [Session.spawn]
  | session j act =>
    obtain ⟨_, _, _, _, rfl⟩ := step_session_iff.mp h
    rw [List.length_set] at hlt
    exact absurd hlt (Nat.not_lt.mpr hle)
  | remove j =>
    obtain ⟨_, _, _, rfl⟩ := step_remove_iff.mp h
    rw [List.length_set] at hlt
    exact absurd hlt (Nat.not_lt.mpr hle)

theorem Held.step (hs : Held s) (hown : ∀ i, act = .remove i → OwnEntry s i)
    (h : State.step proxy s act = some t) : Held t := by
  intro i session' hsession' hopen
  cases hsession : s.sessions[i]? with
  | none => exact lookup_of_spawned h hsession hsession'
  | some session =>
    obtain ⟨_, heq, hfollows⟩ := follows_of_step h hsession
    obtain rfl := Option.some.inj (hsession'.symm.trans heq)
    have hbefore := hs i session hsession (hfollows.isOpen hopen)
    rw [hfollows.key]
    by_contra hafter
    rcases removed_of_step hown h hbefore hafter with rfl | ⟨payload, rfl, hclosed⟩
    · obtain ⟨_, _, _, rfl⟩ := step_remove_iff.mp h
      have hlt := (List.getElem?_eq_some_iff.mp hsession).1
      simp only [List.getElem?_set_self hlt, Option.some.injEq] at hsession'
      subst hsession'
      cases hopen
    · rw [isOpen_eq hsession, hfollows.isOpen hopen] at hclosed
      cases hclosed

end Step

section Run
variable {proxy : UpstreamProxy} {now : Instant} {table : DnsTable} {acts : List Action}

theorem keyed_initial : Keyed (initial now table) := by
  intro key i h
  simp [initial] at h

theorem held_initial : Held (initial now table) := by
  intro i session h
  simp [initial] at h

theorem keyed_of_run {s : State} (h : (system proxy now table).run acts = some s) : Keyed s :=
  System.Reachable.invariant (S := system proxy now table) keyed_initial
    (fun _ _ _ hs hstep => hs.step hstep) ⟨acts, h⟩

/-- No task of the run meets the entry of another session at its end. -/
def Tidy (proxy : UpstreamProxy) (now : Instant) (table : DnsTable) (acts : List Action) : Prop :=
  ∀ s i t, (system proxy now table).Takes acts s (.remove i) t → OwnEntry s i

theorem held_of_tidy (htidy : Tidy proxy now table acts) {s : State}
    (hs : (system proxy now table).Visits acts s) : Held s := by
  apply hs.invariant held_initial
  rintro s act t htakes hheld
  apply hheld.step _ htakes.step_eq
  rintro i rfl
  exact htidy s i t htakes

/-- The inbox of a session that stays open grows by the datagrams of its flow. The
induction is on the later actions, from their last one backwards. -/
theorem inbox_of_tidy (htidy : Tidy proxy now table acts) {before later after : List Action}
    {s t : State} (hacts : acts = before ++ later ++ after)
    (hs : (system proxy now table).run before = some s)
    (ht : (system proxy now table).runFrom s later = some t) {i : ℕ} {session : Session}
    (hsession : s.sessions[i]? = some session) :
    ∃ session', t.sessions[i]? = some session' ∧ session'.key = session.key ∧
      (session'.phase.isOpen = true →
        session'.inbox = session.inbox ++ payloadsFor session.key later) := by
  induction later using List.reverseRecOn generalizing after t with
  | nil =>
    cases ht
    exact ⟨session, hsession, rfl, by simp [payloadsFor]⟩
  | append_singleton later act ih =>
    rw [System.runFrom_append] at ht
    obtain ⟨u, hu, hut⟩ := Option.bind_eq_some_iff.mp ht
    have hstep : State.step proxy u act = some t := by rwa [System.runFrom_singleton] at hut
    obtain ⟨mid, hmid, hkey, hinbox⟩ := ih (show acts = before ++ later ++ act :: after by simp [hacts]) hu
    obtain ⟨session', hsession', hfollows⟩ := follows_of_step hstep hmid
    have hrun : (system proxy now table).run (before ++ later) = some u := by
      rw [System.run_append, hs]
      exact hu
    have hheld : Held u := held_of_tidy htidy ⟨before ++ later, act :: after, by simp [hacts], hrun⟩
    refine ⟨session', hsession', hfollows.key.trans hkey, fun hopen => ?_⟩
    rw [hfollows.inbox (keyed_of_run hrun) hheld hopen, hinbox (hfollows.isOpen hopen), hkey]
    simp [payloadsFor]

/-- The run respects who owns an entry exactly when no task finds the entry of another
session at its end. -/
theorem ownership_iff (proxy : UpstreamProxy) (now : Instant) (table : DnsTable)
    (acts : List Action) : Ownership proxy now table acts ↔
      ∀ s i t, (system proxy now table).Takes acts s (.remove i) t → OwnEntry s i := by
  constructor
  · intro h s i t htakes session hsession j hj
    have hstep : State.step proxy s (.remove i) = some t := htakes.step_eq
    obtain ⟨_, hsession', _, rfl⟩ := step_remove_iff.mp hstep
    obtain rfl := Option.some.inj (hsession.symm.trans hsession')
    rcases h.removed s _ _ htakes _ j hj (by simp) with heq | ⟨_, heq, _⟩
    · exact (Action.remove.inj heq).symm
    · cases heq
  · intro htidy
    constructor
    · intro s act t htakes key i hbefore hafter
      apply removed_of_step _ htakes.step_eq hbefore hafter
      rintro j rfl
      exact htidy s j t htakes
    · intro s hs
      exact held_of_tidy htidy hs
    · intro before later after s t hacts hs ht i session session' hsession hsession' hopen
      obtain ⟨_, heq, _, hinbox⟩ := inbox_of_tidy htidy hacts hs ht hsession
      obtain rfl := Option.some.inj (hsession'.symm.trans heq)
      exact hinbox hopen

end Run

def exampleProxy : UpstreamProxy :=
  { protocol := .socks5 .none, addr := .v4 (.new 10 0 0 1) 1080 }

def exampleFlow : SessionKey := (.v4 (.new 10 0 0 2) 50000, .v4 (.new 93 184 216 34) 443)

/-- The first session fails to connect, a dispatch removes its entry and the next one
spawns the second session, which is in its loop when the first task comes to its end. -/
def turnover : List Action :=
  [.dispatch exampleFlow.1 exampleFlow.2 [1],
    .session 0 (.associate false (.clean fun _ => 0) []),
    .dispatch exampleFlow.1 exampleFlow.2 [2],
    .dispatch exampleFlow.1 exampleFlow.2 [3],
    .session 1 (.associate true (.clean fun _ => 0) [5, 0, 5, 0, 0, 1, 10, 0, 0, 1, 4, 56]),
    .session 1 (.openSockets true),
    .remove 0]

theorem Phase.isOpen_of_inLoop {phase : Phase} (h : phase.inLoop = true) : phase.isOpen = true := by
  cases phase <;> simp_all [inLoop, isOpen]

/-- The session in its loop has lost its entry to the other one. -/
theorem not_ownership_turnover : ¬ Ownership exampleProxy 0 ∅ turnover := by
  intro h
  have hlost : ((system exampleProxy 0 ∅).run turnover).any (fun s =>
      s.map.lookup exampleFlow == none && (s.sessions[1]?).any (fun session =>
        decide (session.key = exampleFlow) && session.phase.inLoop)) = true := by
    decide
  obtain ⟨s, hrun, hs⟩ := (Option.any_eq_true _ _).mp hlost
  obtain ⟨hnone, hloop⟩ := (Bool.and_eq_true _ _).mp hs
  obtain ⟨session, hsession, hphase⟩ := (Option.any_eq_true _ _).mp hloop
  obtain ⟨hkey, hphase⟩ := (Bool.and_eq_true _ _).mp hphase
  have hheld := h.held s ⟨turnover, [], by simp, hrun⟩ 1 session hsession
    (Phase.isOpen_of_inLoop hphase)
  rw [of_decide_eq_true hkey, eq_of_beq hnone] at hheld
  cases hheld

end TransProxy.Udp
