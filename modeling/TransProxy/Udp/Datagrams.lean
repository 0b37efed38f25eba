import TransProxy.Tunnel.Encoders
import TransProxy.Udp.Ownership

/-!
# The datagrams of a flow

What clients send is wrapped for one destination and sent on in order, whatever becomes of the
sessions on the way. What the relay sends goes back to the client without its header.
-/
namespace TransProxy.Udp
open Library Net Dns Tunnel

/-- What the session has received and what it has relayed of it. -/
def Wrapped (session : Session) : Prop :=
  match session.phase with
  | .associating | .opening _ _ => session.received = [] ∧ session.relayed = []
  | .polling _ loop | .replying _ loop =>
    session.relayed = session.received.map (encodeSocks5Udp session.key.2 loop.hostname)
  | .sending pkt loop =>
    session.relayed ++ [pkt] = session.received.map (encodeSocks5Udp session.key.2 loop.hostname)
  | .returned | .finished =>
    ∃ hostname, session.relayed <+: session.received.map (encodeSocks5Udp session.key.2 hostname)

/-- On its way to the client. -/
def Phase.answer : Phase → List Bytes
  | .replying datagram _ => [datagram]
  | _ => []

def answerOf : SessionAction → List Bytes
  | .pollRelay (.ready data) =>
    ((socks5UdpPayloadOffset (data.take maxUdpSize)).map (data.take maxUdpSize).drop).toList
  | _ => []

section Step
variable {proxy : UpstreamProxy} {hasSender : Bool} {table : DnsTable} {now : Instant}
  {session session' : Session} {act : SessionAction}

/-- All that was received has been relayed, except for the last datagram. -/
theorem Wrapped.exists_prefix (h : Wrapped session) : ∃ hostname,
    session.relayed <+: session.received.map (encodeSocks5Udp session.key.2 hostname) := by
  unfold Wrapped at h
  split at h
  · exact ⟨none, by simp [h]⟩
  · exact ⟨none, by simp [h]⟩
  · exact ⟨_, [], (List.append_nil _).trans h⟩
  · exact ⟨_, [], (List.append_nil _).trans h⟩
  · exact ⟨_, h.symm ▸ List.prefix_append _ _⟩
  · exact h
  · exact h

theorem Wrapped.of_polling (h : Wrapped session) {arm : Arm} {loop : Loop}
    (hphase : session.phase = .polling arm loop) :
    session.relayed = session.received.map (encodeSocks5Udp session.key.2 loop.hostname) := by
  simpa only [Wrapped, hphase] using h

theorem Wrapped.of_sending (h : Wrapped session) {pkt : Bytes} {loop : Loop}
    (hphase : session.phase = .sending pkt loop) : session.relayed ++ [pkt] =
      session.received.map (encodeSocks5Udp session.key.2 loop.hostname) := by
  simpa only [Wrapped, hphase] using h

theorem Wrapped.of_replying (h : Wrapped session) {datagram : Bytes} {loop : Loop}
    (hphase : session.phase = .replying datagram loop) :
    session.relayed = session.received.map (encodeSocks5Udp session.key.2 loop.hostname) := by
  simpa only [Wrapped, hphase] using h

theorem wrapped_exit (h : Wrapped session) : Wrapped session.exit := h.exists_prefix

/-- All of it has been relayed. -/
theorem wrapped_iterate {loop : Loop} (h : session.relayed =
    session.received.map (encodeSocks5Udp session.key.2 loop.hostname)) (now : Instant) :
    Wrapped (session.iterate loop now) := h

theorem wrapped_associate (hs : Wrapped session) {connected : Bool} {net : Dialogue.Network}
    {stream : Bytes}
    (h : session.step proxy hasSender table now (.associate connected net stream) = some session') :
    Wrapped session' := by
  obtain ⟨hphase, rfl | ⟨relayAddr, control, rfl⟩⟩ := Session.step_associate h
  · exact wrapped_exit hs
  · simpa only [Wrapped, hphase] using hs

theorem wrapped_openSockets (hs : Wrapped session) {ok : Bool}
    (h : session.step proxy hasSender table now (.openSockets ok) = some session') :
    Wrapped session' := by
  obtain ⟨relayAddr, control, hphase, rfl⟩ := Session.step_openSockets h
  have hnone : session.received = [] ∧ session.relayed = [] := by
    simpa only [Wrapped, hphase] using hs
  split_ifs
  · exact wrapped_iterate (by simp [hnone]) now
  · exact wrapped_exit hs

/-- The datagram that is taken in is the one that is sent. -/
theorem wrapped_pollRecv (hs : Wrapped session)
    (h : session.step proxy hasSender table now .pollRecv = some session') : Wrapped session' := by
  obtain ⟨loop, hphase, ⟨payload, rest, _, rfl⟩ | ⟨_, rfl⟩⟩ := Session.step_pollRecv h
  · simp [Wrapped, hs.of_polling hphase]
  · split_ifs
    · exact hs.of_polling hphase
    · exact wrapped_exit hs

theorem wrapped_pollRelay (hs : Wrapped session) {datagram : Poll Bytes}
    (h : session.step proxy hasSender table now (.pollRelay datagram) = some session') :
    Wrapped session' := by
  obtain ⟨loop, hphase, ⟨_, rfl⟩ | ⟨_, rfl⟩ | ⟨data, _, ⟨_, _, rfl⟩ | ⟨_, rfl⟩⟩⟩ :=
    Session.step_pollRelay h
  · exact hs.of_polling hphase
  · exact wrapped_exit hs
  · exact hs.of_polling hphase
  · exact wrapped_iterate (hs.of_polling hphase) now

theorem wrapped_pollControl (hs : Wrapped session) {readable : Poll Unit}
    (h : session.step proxy hasSender table now (.pollControl readable) = some session') :
    Wrapped session' := by
  obtain ⟨loop, hphase, ⟨_, rfl⟩ | ⟨_, rfl⟩ | ⟨_, _, _, _, rfl⟩⟩ := Session.step_pollControl h
  · exact hs.of_polling hphase
  · exact wrapped_exit hs
  · have hall := hs.of_polling hphase
    exact wrapped_iterate hall now

theorem wrapped_pollIdle (hs : Wrapped session)
    (h : session.step proxy hasSender table now .pollIdle = some session') : Wrapped session' := by
  obtain ⟨loop, hphase, rfl⟩ := Session.step_pollIdle h
  split_ifs
  · exact wrapped_exit hs
  · exact hs.of_polling hphase

theorem wrapped_sent (hs : Wrapped session) {ok : Bool}
    (h : session.step proxy hasSender table now (.sent ok) = some session') :
    Wrapped session' := by
  obtain ⟨pkt, loop, hphase, rfl⟩ := Session.step_sent h
  have hlast := hs.of_sending hphase
  split_ifs
  · exact hlast
  · exact wrapped_exit hs

theorem wrapped_replied (hs : Wrapped session) {ok : Bool}
    (h : session.step proxy hasSender table now (.replied ok) = some session') :
    Wrapped session' := by
  obtain ⟨datagram, loop, hphase, rfl⟩ := Session.step_replied h
  have hall := hs.of_replying hphase
  split_ifs
  · exact hall
  · exact hall

theorem Wrapped.step (hs : Wrapped session)
    (h : session.step proxy hasSender table now act = some session') : Wrapped session' := by
  cases act with
  | associate connected net stream => exact wrapped_associate hs h
  | openSockets ok => exact wrapped_openSockets hs h
  | pollRecv => exact wrapped_pollRecv hs h
  | pollRelay datagram => exact wrapped_pollRelay hs h
  | pollControl readable => exact wrapped_pollControl hs h
  | pollIdle => exact wrapped_pollIdle hs h
  | sent ok => exact wrapped_sent hs h
  | replied ok => exact wrapped_replied hs h

/-- Only a datagram of the relay with a whole header is answered to the client. -/
theorem answers_step (h : session.step proxy hasSender table now act = some session') :
    (session'.replied ++ session'.phase.answer).Sublist
      (session.replied ++ session.phase.answer ++ answerOf act) := by
  have hquiet : ∀ next : Session, next.replied = session.replied → next.phase.answer = [] →
      (next.replied ++ next.phase.answer).Sublist
        (session.replied ++ session.phase.answer ++ answerOf act) := by
    intro next hreplied hanswer
    rw [hreplied, hanswer, List.append_nil, List.append_assoc]
    exact List.sublist_append_left _ _
  revert h
  fun_cases Session.step proxy hasSender table now session act
  all_goals intro h
  all_goals try cases h
  case case11.refl loop hphase data rbuf off hoff =>
    have hdata : answerOf (.pollRelay (.ready data)) = [rbuf.drop off] := by
      rw [answerOf, hoff]
      rfl
    rw [hphase, hdata]
    simp only [Phase.answer, List.append_nil, List.Sublist.refl]
  case case23.refl ok datagram loop hphase next =>
    cases ok with
    | true =>
      rw [hphase]
      simp [next, Session.iterate, Phase.answer]
    | false => exact hquiet _ rfl rfl
  all_goals first
    | exact hquiet _ rfl rfl
    | split_ifs <;> exact hquiet _ rfl rfl

/-- A session that returns loses what is still in its channel. -/
theorem inbox_step (h : session.step proxy hasSender table now act = some session') :
    session'.inbox.Sublist session.inbox := by
  have hexit : session.exit.inbox.Sublist session.inbox := by
    simp [Session.inbox, Session.exit]
  revert h
  fun_cases Session.step proxy hasSender table now session act
  all_goals intro h
  all_goals try cases h
  case case6.refl loop hphase payload rest hchannel pkt =>
    simp [Session.inbox, hchannel]
  all_goals first
    | exact hexit
    | exact List.Sublist.refl _
    | split_ifs
      · first
        | exact hexit
        | exact List.Sublist.refl _
      · first
        | exact hexit
        | exact List.Sublist.refl _

end Step

/-- What the sessions of the flow were sent, one session after the other. -/
def inboxOf (key : SessionKey) (sessions : List Session) : List Bytes :=
  sessions.flatMap (fun session => if session.key = key then session.inbox else [])

theorem inboxOf_append (key : SessionKey) (before after : List Session) :
    inboxOf key (before ++ after) = inboxOf key before ++ inboxOf key after :=
  List.flatMap_append

theorem inboxOf_cons (key : SessionKey) (session : Session) (after : List Session) :
    inboxOf key (session :: after) =
      (if session.key = key then session.inbox else []) ++ inboxOf key after :=
  List.flatMap_cons

theorem inboxOf_eq_nil {key : SessionKey} {sessions : List Session}
    (h : ∀ session ∈ sessions, session.key ≠ key) : inboxOf key sessions = [] := by
  rw [inboxOf, List.flatMap_eq_nil_iff]
  exact fun session hmem => if_neg (h session hmem)

/-- The place of an element, and what stands there when it is replaced. -/
theorem exists_split {α : Type*} {l : List α} {i : ℕ} {a : α} (h : l[i]? = some a) :
    ∃ before after, l = before ++ a :: after ∧ before.length = i ∧
      (∀ b, l.set i b = before ++ b :: after) ∧ ∀ f, l.modify i f = before ++ f a :: after := by
  obtain ⟨hlt, rfl⟩ := List.getElem?_eq_some_iff.mp h
  have hlen : (l.take i).length = i := List.length_take_of_le (Nat.le_of_lt hlt)
  refine ⟨l.take i, l.drop (i + 1), ?_, hlen, ?_, ?_⟩
  · rw [List.getElem_cons_drop, List.take_append_drop]
  · intro b
    rw [List.set_eq_take_append_cons_drop, if_pos hlt]
  · intro f
    exact List.modify_eq_take_cons_drop hlt

/-- The entry of a flow is of its last session. -/
def Latest (s : State) : Prop := ∀ key i, s.map.lookup key = some i →
  (∃ session, s.sessions[i]? = some session ∧ session.key = key) ∧
    ∀ j session, i < j → s.sessions[j]? = some session → session.key ≠ key

/-- What a session is replaced by. -/
structure Replaces (session session' : Session) : Prop where
  key : session'.key = session.key
  inbox : session'.inbox.Sublist session.inbox

section State
variable {proxy : UpstreamProxy} {s t : State} {act : Action} {acts : List Action}

theorem inboxOf_set {i : ℕ} {session session' : Session} (h : s.sessions[i]? = some session)
    (hreplaces : Replaces session session') (key : SessionKey) :
    (inboxOf key (s.sessions.set i session')).Sublist (inboxOf key s.sessions) := by
  obtain ⟨before, after, hsessions, _, hset, _⟩ := exists_split h
  rw [hset, hsessions, inboxOf_append, inboxOf_append, inboxOf_cons, inboxOf_cons, hreplaces.key]
  apply (List.Sublist.refl _).append
  apply List.Sublist.append _ (List.Sublist.refl _)
  split_ifs
  · exact hreplaces.inbox
  · exact List.Sublist.refl _

/-- Keys at their places are as before. -/
theorem Latest.of_keys (hs : Latest s)
    (hkeys : ∀ j : ℕ, (t.sessions[j]?).map Session.key = (s.sessions[j]?).map Session.key)
    (hmap : ∀ key i, t.map.lookup key = some i → s.map.lookup key = some i) : Latest t := by
  intro key i hlookup
  obtain ⟨⟨session, hsession, hkey⟩, hlater⟩ := hs key i (hmap key i hlookup)
  constructor
  · have hmapped : (t.sessions[i]?).map Session.key = some key := by
      rw [hkeys, hsession, Option.map_some, hkey]
    exact Option.map_eq_some_iff.mp hmapped
  · intro j session' hij hsession'
    have hmapped : (s.sessions[j]?).map Session.key = some session'.key := by
      rw [← hkeys, hsession', Option.map_some]
    obtain ⟨old, hold, hsame⟩ := Option.map_eq_some_iff.mp hmapped
    rw [← hsame]
    exact hlater j old hij hold

theorem keys_set {i : ℕ} {session session' : Session} (h : s.sessions[i]? = some session)
    (hkey : session'.key = session.key) (j : ℕ) :
    ((s.sessions.set i session')[j]?).map Session.key = (s.sessions[j]?).map Session.key := by
  by_cases hij : i = j
  · subst hij
    have hlt := (List.getElem?_eq_some_iff.mp h).1
    rw [List.getElem?_set_self hlt, h, Option.map_some, Option.map_some, hkey]
  · rw [List.getElem?_set_ne hij]

theorem keys_push (i : ℕ) (payload : Bytes) (j : ℕ) :
    ((s.sessions.modify i (·.push payload))[j]?).map Session.key =
      (s.sessions[j]?).map Session.key := by
  rw [List.getElem?_modify]
  cases s.sessions[j]? with
  | none => rfl
  | some session =>
    simp only [Option.map_eq_map, Option.map_some]
    split_ifs <;> rfl

theorem Latest.step (hs : Latest s) (h : State.step proxy s act = some t) : Latest t := by
  cases act with
  | tick d =>
    cases h
    exact hs
  | setTable table =>
    cases h
    exact hs
  | dispatch client origDst payload =>
    obtain rfl := Option.some.inj h
    rcases dispatch_cases s client origDst payload with ⟨i, _, _, hs'⟩ | ⟨i, _, _, hs'⟩ |
      ⟨hnone, hs'⟩
    · rw [hs']
      exact hs.of_keys (keys_push i payload) (fun _ _ h => h)
    · rw [hs']
      exact hs.of_keys (fun _ => rfl) (fun key i h => HashMap.sub_erase _ _ key i h)
    · rw [hs']
      intro key i hlookup
      rw [HashMap.lookup_insert_eq] at hlookup
      split_ifs at hlookup with hkey
      · obtain rfl := Option.some.inj hlookup
        refine ⟨⟨.spawn (client, origDst) payload, by simp, hkey.symm⟩, ?_⟩
        intro j session hj hsession
        have hlt := (List.getElem?_eq_some_iff.mp hsession).1
        rw [List.length_append, List.length_singleton] at hlt
        omega
      · obtain ⟨⟨session, hsession, hown⟩, hlater⟩ := hs key i hlookup
        have hlt := (List.getElem?_eq_some_iff.mp hsession).1
        refine ⟨⟨session, by rw [List.getElem?_append_left hlt, hsession], hown⟩, ?_⟩
        intro j session' hij hsession'
        by_cases hj : j < s.sessions.length
        · rw [List.getElem?_append_left hj] at hsession'
          exact hlater j session' hij hsession'
        · rw [List.getElem?_append_right (by omega)] at hsession'
          obtain rfl := List.mem_singleton.mp (List.mem_of_getElem? hsession')
          exact fun he => hkey he.symm
  | session i act =>
    obtain ⟨session, session', hsession, hstep, rfl⟩ := step_session_iff.mp h
    exact hs.of_keys (keys_set hsession (Session.continues_step hstep).key) (fun _ _ h => h)
  | remove i =>
    obtain ⟨session, hsession, _, rfl⟩ := step_remove_iff.mp h
    have hfinished : Replaces session { session with phase := .finished } :=
      ⟨rfl, List.Sublist.refl _⟩
    exact hs.of_keys (keys_set hsession hfinished.key)
      (fun key i h => HashMap.sub_erase _ _ key i h)

/-- A payload comes behind those that the sessions of its flow were sent before. -/
theorem inboxOf_step (hs : Latest s) (h : State.step proxy s act = some t) (key : SessionKey) :
    (inboxOf key t.sessions).Sublist (inboxOf key s.sessions ++ payloadOf key act) := by
  have hquiet : ∀ sessions : List Session, (inboxOf key sessions).Sublist (inboxOf key s.sessions) →
      (inboxOf key sessions).Sublist (inboxOf key s.sessions ++ payloadOf key act) :=
    fun sessions hsub => hsub.trans (List.sublist_append_left _ _)
  cases act with
  | tick d =>
    cases h
    exact hquiet _ (List.Sublist.refl _)
  | setTable table =>
    cases h
    exact hquiet _ (List.Sublist.refl _)
  | dispatch client origDst payload =>
    obtain rfl := Option.some.inj h
    rcases dispatch_cases s client origDst payload with ⟨i, hi, _, hs'⟩ | ⟨i, _, _, hs'⟩ |
      ⟨_, hs'⟩
    · obtain ⟨⟨session, hsession, hkey⟩, hlater⟩ := hs _ i hi
      obtain ⟨before, after, hsessions, hlen, _, hmodify⟩ := exists_split hsession
      rw [hs']
      dsimp only
      rw [hmodify, hsessions, inboxOf_append, inboxOf_append, inboxOf_cons, inboxOf_cons]
      by_cases hflow : (client, origDst) = key
      · have hafter : inboxOf key after = [] := by
          apply inboxOf_eq_nil
          intro later hlater'
          obtain ⟨j, hj⟩ := List.mem_iff_getElem?.mp hlater'
          rw [← hflow]
          apply hlater (i + 1 + j) later (by omega)
          rw [hsessions, List.getElem?_append_right (by omega)]
          have hindex : i + 1 + j - before.length = j + 1 := by omega
          rw [hindex, List.getElem?_cons_succ, hj]
        have hpush : (session.push payload).key = key := by
          rw [← hflow]
          exact hkey
        rw [hafter, if_pos hpush, if_pos (hkey.trans hflow), Session.inbox_push, payloadOf,
          if_pos hflow]
        simp
      · have hne : session.key ≠ key := fun he => hflow (hkey.symm.trans he)
        have hne' : (session.push payload).key ≠ key := hne
        rw [if_neg hne', if_neg hne]
        exact List.sublist_append_left _ _
    · rw [hs']
      exact hquiet _ (List.Sublist.refl _)
    · rw [hs']
      dsimp only
      have hspawn : (Session.spawn (client, origDst) payload).inbox = [payload] := rfl
      have hkey : (Session.spawn (client, origDst) payload).key = (client, origDst) := rfl
      have hnil : inboxOf key [] = [] := rfl
      rw [inboxOf_append, inboxOf_cons, payloadOf, hspawn, hkey, hnil, List.append_nil]
  | session i act =>
    obtain ⟨session, session', hsession, hstep, rfl⟩ := step_session_iff.mp h
    exact hquiet _ (inboxOf_set hsession
      ⟨(Session.continues_step hstep).key, inbox_step hstep⟩ key)
  | remove i =>
    obtain ⟨session, hsession, _, rfl⟩ := step_remove_iff.mp h
    have hfinished : Replaces session { session with phase := .finished } :=
      ⟨rfl, List.Sublist.refl _⟩
    exact hquiet _ (inboxOf_set hsession hfinished key)

def answersOf (i : ℕ) : Action → List Bytes
  | .session j act => if j = i then answerOf act else []
  | _ => []

structure SessionInv (acts : List Action) (i : ℕ) (session : Session) : Prop where
  wrapped : Wrapped session
  answers : (session.replied ++ session.phase.answer).Sublist (acts.flatMap (answersOf i))

theorem sessionInv_mono {i : ℕ} {session : Session} (h : SessionInv acts i session) (act : Action) :
    SessionInv (acts ++ [act]) i session := by
  refine ⟨h.wrapped, h.answers.trans ?_⟩
  rw [List.flatMap_append]
  exact List.sublist_append_left _ _

theorem sessionInv_step
    (hs : ∀ i session, s.sessions[i]? = some session → SessionInv acts i session)
    (h : State.step proxy s act = some t) {i : ℕ} {session : Session}
    (hsession : t.sessions[i]? = some session) : SessionInv (acts ++ [act]) i session := by
  cases act with
  | tick d =>
    cases h
    exact sessionInv_mono (hs i session hsession) _
  | setTable table =>
    cases h
    exact sessionInv_mono (hs i session hsession) _
  | dispatch client origDst payload =>
    obtain rfl := Option.some.inj h
    rcases dispatch_cases s client origDst payload with ⟨j, _, _, hs'⟩ | ⟨j, _, _, hs'⟩ | ⟨_, hs'⟩
    · rw [hs', List.getElem?_modify] at hsession
      obtain ⟨old, hold, rfl⟩ := Option.map_eq_some_iff.mp hsession
      split_ifs
      · have hpush : SessionInv acts i (old.push payload) :=
          ⟨(hs i old hold).wrapped, (hs i old hold).answers⟩
        exact sessionInv_mono hpush _
      · exact sessionInv_mono (hs i old hold) _
    · rw [hs'] at hsession
      exact sessionInv_mono (hs i session hsession) _
    · rw [hs'] at hsession
      by_cases hi : i < s.sessions.length
      · rw [List.getElem?_append_left hi] at hsession
        exact sessionInv_mono (hs i session hsession) _
      · rw [List.getElem?_append_right (by omega)] at hsession
        obtain rfl := List.mem_singleton.mp (List.mem_of_getElem? hsession)
        exact ⟨⟨rfl, rfl⟩, List.nil_sublist _⟩
  | session j act =>
    obtain ⟨old, new, hold, hstep, rfl⟩ := step_session_iff.mp h
    by_cases hij : j = i
    · subst hij
      rw [List.getElem?_set_self (List.getElem?_eq_some_iff.mp hold).1] at hsession
      obtain rfl := Option.some.inj hsession
      have hinv := hs j old hold
      refine ⟨hinv.wrapped.step hstep, (answers_step hstep).trans ?_⟩
      rw [List.flatMap_append, List.flatMap_singleton, answersOf, if_pos rfl]
      exact hinv.answers.append (List.Sublist.refl _)
    · rw [List.getElem?_set_ne hij] at hsession
      exact sessionInv_mono (hs i session hsession) _
  | remove j =>
    obtain ⟨old, hold, hphase, rfl⟩ := step_remove_iff.mp h
    by_cases hij : j = i
    · subst hij
      rw [List.getElem?_set_self (List.getElem?_eq_some_iff.mp hold).1] at hsession
      obtain rfl := Option.some.inj hsession
      have hinv := sessionInv_mono (hs j old hold) (.remove j)
      refine ⟨hinv.wrapped.exists_prefix, ?_⟩
      have hanswers := hinv.answers
      rw [hphase] at hanswers
      exact hanswers
    · rw [List.getElem?_set_ne hij] at hsession
      exact sessionInv_mono (hs i session hsession) _

end State

section Run
variable {proxy : UpstreamProxy} {now : Instant} {table : DnsTable} {acts : List Action} {t : State}

theorem latest_of_run (h : (system proxy now table).run acts = some t) : Latest t :=
  System.Reachable.invariant (S := system proxy now table)
    (fun key i h => by simp [system, initial] at h) (fun _ _ _ hs hstep => hs.step hstep) ⟨acts, h⟩

theorem inboxOf_of_run (h : (system proxy now table).run acts = some t) (key : SessionKey) :
    (inboxOf key t.sessions).Sublist (payloadsFor key acts) := by
  refine System.run_induction (S := system proxy now table)
    (P := fun acts s => (inboxOf key s.sessions).Sublist (payloadsFor key acts))
    (List.nil_sublist _) ?_ acts t h
  intro acts s act t hrun hs hstep
  have hsub := inboxOf_step (latest_of_run hrun) hstep key
  rw [payloadsFor, List.flatMap_append, List.flatMap_singleton]
  exact hsub.trans (hs.append (List.Sublist.refl _))

theorem sessionInv_of_run (h : (system proxy now table).run acts = some t) :
    ∀ i session, t.sessions[i]? = some session → SessionInv acts i session := by
  refine System.run_induction (S := system proxy now table)
    (P := fun acts s => ∀ i session, s.sessions[i]? = some session → SessionInv acts i session)
    (fun i session h => by simp [system, initial] at h) ?_ acts t h
  intro acts s act t _ hs hstep i session hsession
  exact sessionInv_step hs hstep hsession

end Run

def exchange : List Action :=
  [.dispatch exampleFlow.1 exampleFlow.2 [1],
    .session 0 (.associate true (.clean fun _ => 0) [5, 0, 5, 0, 0, 1, 10, 0, 0, 1, 4, 56]),
    .session 0 (.openSockets true),
    .dispatch exampleFlow.1 exampleFlow.2 [2],
    .session 0 .pollRecv,
    .session 0 (.sent true)]

end TransProxy.Udp
