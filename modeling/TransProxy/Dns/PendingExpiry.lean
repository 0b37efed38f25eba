import TransProxy.Dns.PendingNewest
import TransProxy.Dns.UdpSafety

/-!
# When pending queries expire

A query leaves the map when a later query sweeps or evicts it, or when a datagram answers it.
The reader itself does not look at the age of the entry that it takes.
-/
namespace TransProxy.Dns.Udp
open Library Net

/-- The client loop calls `pending_insert` for the datagram. -/
def Inserts (stripAaaa : Bool) (packet : Bytes) : Prop :=
  12 ≤ packet.length ∧ ¬(stripAaaa = true ∧ (parseQueryType packet).getD 0 = dnsTypeAaaa)

def pendingEntry (addr : SocketAddr) (packet : Bytes) (created : Instant)
    (h : ¬packet.length < 12) : PendingQuery :=
  { clientAddr := addr, clientTxId := u16At packet 0 (id_inBounds h)
    name := (parseQueryName packet).getD "", qtype := (parseQueryType packet).getD 0, created }

inductive Enters (stripAaaa : Bool) (id : UInt16) (entry : PendingQuery) (s : State) :
    Action → Prop
  | inserted {addr : SocketAddr} {packet : Bytes} {created now : Instant} {order : PendingOrder}
      {draws : ℕ → UInt16} (h : ¬packet.length < 12) (hinserts : Inserts stripAaaa packet)
      (hentry : entry = pendingEntry addr packet created h)
      (hid : (pendingInsert s.pending entry now order draws).1 = some id) :
      Enters stripAaaa id entry s (.clientDatagram addr packet created now order draws)

/-- The datagram is a response to the query that went upstream under the identifier. -/
def Answers (datagram : Bytes) (id : UInt16) (entry : PendingQuery) : Prop :=
  ∃ h : ¬datagram.length < 12, getElem datagram 2 (flags_inBounds h) &&& 0x80 ≠ 0 ∧
    u16At datagram 0 (id_inBounds h) = id ∧ ∃ name, parseQueryName datagram = some name ∧
      eqIgnoreAsciiCase (strBytes entry.name) (strBytes name) = true ∧
      entry.qtype = (parseQueryType datagram).getD 0

inductive Drops (stripAaaa : Bool) (id : UInt16) (entry : PendingQuery) (s : State) :
    Action → Prop
  /-- A later query finds it expired. -/
  | swept {addr : SocketAddr} {packet : Bytes} {created now : Instant} {order : PendingOrder}
      {draws : ℕ → UInt16} (hinserts : Inserts stripAaaa packet)
      (hexpired : entry.created + pendingQueryTtl ≤ now) :
      Drops stripAaaa id entry s (.clientDatagram addr packet created now order draws)
  /-- A later query needs its place. -/
  | evicted {addr : SocketAddr} {packet : Bytes} {created now : Instant} {order : PendingOrder}
      {draws : ℕ → UInt16} (hinserts : Inserts stripAaaa packet)
      (hswept : id ∈ sweepExpired s.pending now)
      (hgone : id ∉ pendingSurvivors order s.pending now) :
      Drops stripAaaa id entry s (.clientDatagram addr packet created now order draws)
  | answered {datagram : Bytes} (h : Answers datagram id entry) :
      Drops stripAaaa id entry s (.upstreamDatagram datagram)

/-- The subtraction of the source stops at zero. -/
theorem age_lt_iff {now created ttl : ℕ} (h : 0 < ttl) :
    now - created < ttl ↔ now < created + ttl := by
  omega

theorem not_live_iff {p : PendingQuery} {now : Instant} :
    ¬ p.Live now ↔ p.created + pendingQueryTtl ≤ now := by
  have httl : 0 < pendingQueryTtl := by decide
  rw [PendingQuery.Live, age_lt_iff httl, Nat.not_lt]

section Step
variable {stripAaaa : Bool} {s t : State} {id : UInt16} {entry : PendingQuery}

theorem lookup_pendingSurvivors {order : PendingOrder} {map : PendingMap} {now : Instant} :
    (pendingSurvivors order map now).lookup id = some entry ↔
      map.lookup id = some entry ∧ entry.Live now ∧ id ∈ pendingSurvivors order map now := by
  have hnewest := newest_pendingSurvivors order map now
  constructor
  · intro h
    obtain ⟨hold, hlive⟩ := hnewest.live id entry h
    exact ⟨hold, hlive, HashMap.mem_of_lookup h⟩
  · rintro ⟨hold, _, hmem⟩
    obtain ⟨found, hfound⟩ := HashMap.exists_lookup_of_mem hmem
    obtain ⟨hfoundOld, _⟩ := hnewest.live id found hfound
    rw [hfound, ← hfoundOld, hold]

/-- The pending map after the client loop has taken a datagram. -/
theorem pending_clientReceive (stripAaaa : Bool) (s : State) (addr : SocketAddr) (packet : Bytes)
    (created now : Instant) (order : PendingOrder) (draws : ℕ → UInt16) :
    (∃ h : ¬packet.length < 12, Inserts stripAaaa packet ∧
      (clientReceive stripAaaa s addr packet created now order draws).pending =
        (pendingInsert s.pending (pendingEntry addr packet created h) now order draws).2) ∨
    ¬ Inserts stripAaaa packet ∧
      (clientReceive stripAaaa s addr packet created now order draws).pending = s.pending := by
  unfold clientReceive
  by_cases hlen : packet.length < 12
  · right
    exact ⟨fun h => Nat.not_lt.mpr h.1 hlen, by rw [dif_pos hlen]⟩
  by_cases hstrip : stripAaaa = true ∧ (parseQueryType packet).getD 0 = dnsTypeAaaa
  · right
    refine ⟨fun h => h.2 hstrip, ?_⟩
    rw [dif_neg hlen]
    dsimp only
    rw [if_pos hstrip]
    cases buildNodata packet <;> rfl
  · left
    refine ⟨hlen, ⟨Nat.not_lt.mp hlen, hstrip⟩, ?_⟩
    rw [dif_neg hlen]
    dsimp only
    rw [if_neg hstrip]
    rw [pendingEntry]
    cases pendingInsert s.pending _ now order draws with
    | mk drawn map => cases drawn <;> rfl

/-- A call of `pending_insert` leaves the entries that are alive and not evicted, and adds
the new one if it found an identifier. -/
theorem lookup_pendingInsert {new : PendingQuery} {now : Instant} {order : PendingOrder}
    {draws : ℕ → UInt16} {map : PendingMap} :
    (pendingInsert map new now order draws).2.lookup id = some entry ↔
      entry = new ∧ (pendingInsert map new now order draws).1 = some id ∨
        (pendingSurvivors order map now).lookup id = some entry := by
  cases hinsert : pendingInsert map new now order draws with
  | mk drawn map' =>
    cases drawn with
    | none =>
      obtain rfl := pendingInsert_none hinsert
      simp
    | some drawn =>
      obtain ⟨hfree, rfl⟩ := pendingInsert_some hinsert
      rw [HashMap.lookup_insert_eq]
      by_cases hid : id = drawn
      · subst hid
        have hnone := AList.lookup_eq_none.mpr hfree
        simp [hnone, eq_comm]
      · simp [hid, Ne.symm hid]

theorem readerMatch_iff_answers {datagram : Bytes} {pending : PendingMap} :
    (∃ name map, readerMatch pending datagram = some (id, name, entry, map)) ↔
      pending.lookup id = some entry ∧ Answers datagram id entry := by
  constructor
  · rintro ⟨name, map, h⟩
    obtain ⟨hlen, hqr, hid, hname, htake⟩ := readerMatch_eq_some_iff.mp h
    obtain ⟨hlookup, _, hsame, htype⟩ := pendingTakeMatch_eq_some_iff.mp htake
    exact ⟨hlookup, hlen, hqr, hid, name, hname, hsame, htype⟩
  · rintro ⟨hlookup, hlen, hqr, hid, name, hname, hsame, htype⟩
    exact ⟨name, pending.erase id, readerMatch_eq_some_iff.mpr ⟨hlen, hqr, hid, hname,
      pendingTakeMatch_eq_some_iff.mpr ⟨hlookup, rfl, hsame, htype⟩⟩⟩

theorem enters_iff {addr : SocketAddr} {packet : Bytes} {created now : Instant}
    {order : PendingOrder} {draws : ℕ → UInt16} :
    Enters stripAaaa id entry s (.clientDatagram addr packet created now order draws) ↔
      ∃ h : ¬packet.length < 12, Inserts stripAaaa packet ∧
        entry = pendingEntry addr packet created h ∧
        (pendingInsert s.pending entry now order draws).1 = some id := by
  constructor
  · rintro ⟨h, hinserts, hentry, hid⟩
    exact ⟨h, hinserts, hentry, hid⟩
  · rintro ⟨h, hinserts, hentry, hid⟩
    exact .inserted h hinserts hentry hid

/-- An insert drops what does not survive it. -/
theorem not_drops_iff {addr : SocketAddr} {packet : Bytes} {created now : Instant}
    {order : PendingOrder} {draws : ℕ → UInt16} (hinserts : Inserts stripAaaa packet)
    (hold : s.pending.lookup id = some entry) :
    ¬ Drops stripAaaa id entry s (.clientDatagram addr packet created now order draws) ↔
      entry.Live now ∧ id ∈ pendingSurvivors order s.pending now := by
  constructor
  · intro hstays
    have hlive : entry.Live now := by
      by_contra hexpired
      exact hstays (.swept hinserts (not_live_iff.mp hexpired))
    have hswept := lookup_sweepExpired.mpr ⟨hold, hlive⟩
    refine ⟨hlive, ?_⟩
    by_contra hgone
    exact hstays (.evicted hinserts (HashMap.mem_of_lookup hswept) hgone)
  · rintro ⟨hlive, hmem⟩ hdrops
    cases hdrops with
    | swept _ hexpired => exact not_live_iff.mpr hexpired hlive
    | evicted _ _ hgone => exact hgone hmem

/-- A step that leaves the map as it is, and is none that could change it. -/
theorem pending_iff_of_eq {a : Action} (hpending : t.pending = s.pending)
    (henters : ¬ Enters stripAaaa id entry s a) (hdrops : ¬ Drops stripAaaa id entry s a) :
    t.pending.lookup id = some entry ↔ Enters stripAaaa id entry s a ∨
      s.pending.lookup id = some entry ∧ ¬ Drops stripAaaa id entry s a := by
  simp [hpending, henters, hdrops]

theorem pending_readerReceive {datagram : Bytes} :
    (readerReceive s datagram).pending.lookup id = some entry ↔
      s.pending.lookup id = some entry ∧ ¬ Answers datagram id entry := by
  obtain ⟨hmatch, h⟩ | ⟨txId, name, taken, map, hmatch, h⟩ := readerReceive_cases s datagram
  · have hno : s.pending.lookup id = some entry → ¬ Answers datagram id entry := by
      intro hlookup hanswers
      obtain ⟨name, map, hsome⟩ := readerMatch_iff_answers.mpr ⟨hlookup, hanswers⟩
      rw [hmatch] at hsome
      cases hsome
    rw [h, iff_self_and]
    exact hno
  · obtain ⟨hlookup, hanswers⟩ := readerMatch_iff_answers.mp ⟨name, map, hmatch⟩
    rw [h, State.accept, HashMap.lookup_erase_eq]
    by_cases hid : id = txId
    · subst hid
      -- the one entry under the identifier is the one that was taken
      have htaken : s.pending.lookup id = some entry → Answers datagram id entry := by
        intro h
        obtain rfl := Option.some.inj (hlookup.symm.trans h)
        exact hanswers
      simpa using htaken
    · have hother : ¬ Answers datagram id entry := by
        rintro ⟨_, _, hid', _⟩
        obtain ⟨_, _, htx, _⟩ := hanswers
        exact hid (hid'.symm.trans htx)
      simp [hid, hother]

/-- After a step an entry is pending that the step put there, or that was and was not
dropped. -/
theorem pending_step {a : Action} (h : step stripAaaa s a = some t) :
    t.pending.lookup id = some entry ↔ Enters stripAaaa id entry s a ∨
      s.pending.lookup id = some entry ∧ ¬ Drops stripAaaa id entry s a := by
  cases a with
  | clientDatagram addr packet created now order draws =>
    obtain ⟨_, rfl⟩ := step_clientDatagram h
    obtain ⟨hlen, hinserts, hpending⟩ | ⟨hno, hpending⟩ :=
      pending_clientReceive stripAaaa s addr packet created now order draws
    · rw [hpending, lookup_pendingInsert, lookup_pendingSurvivors, enters_iff]
      have hkept : s.pending.lookup id = some entry ∧ entry.Live now ∧
          id ∈ pendingSurvivors order s.pending now ↔ s.pending.lookup id = some entry ∧
            ¬ Drops stripAaaa id entry s (.clientDatagram addr packet created now order draws) :=
        and_congr_right fun hold => (not_drops_iff hinserts hold).symm
      rw [hkept]
      refine or_congr_left ⟨?_, ?_⟩
      · rintro ⟨rfl, hid⟩
        exact ⟨hlen, hinserts, rfl, hid⟩
      · rintro ⟨_, _, rfl, hid⟩
        exact ⟨rfl, hid⟩
    · refine pending_iff_of_eq hpending ?_ ?_
      · rintro ⟨_, hinserts, _, _⟩
        exact hno hinserts
      · intro hdrops
        cases hdrops with
        | swept hinserts _ => exact hno hinserts
        | evicted hinserts _ _ => exact hno hinserts
  | clientError =>
    obtain rfl := step_clientError h
    exact pending_iff_of_eq rfl (by rintro ⟨⟩) (by rintro ⟨⟩)
  | forward ok =>
    obtain ⟨sent, rfl⟩ := step_forward h
    exact pending_iff_of_eq rfl (by rintro ⟨⟩) (by rintro ⟨⟩)
  | upstreamDatagram datagram =>
    obtain ⟨_, rfl⟩ := step_upstreamDatagram h
    have henters : ¬ Enters stripAaaa id entry s (.upstreamDatagram datagram) := by rintro ⟨⟩
    have hdrops : Drops stripAaaa id entry s (.upstreamDatagram datagram) ↔
        Answers datagram id entry := by
      constructor
      · rintro ⟨⟩
        assumption
      · exact .answered
    rw [pending_readerReceive, hdrops, or_iff_right henters]
  | insertRow now evictNow order =>
    obtain ⟨_, _, _, _, _, rfl⟩ := step_insertRow h
    exact pending_iff_of_eq rfl (by rintro ⟨⟩) (by rintro ⟨⟩)
  | reply ok =>
    obtain ⟨_, _, rfl⟩ := step_reply h
    exact pending_iff_of_eq rfl (by rintro ⟨⟩) (by rintro ⟨⟩)

end Step

/-- The readings of the clock, in the order in which they are taken, up to the end of the
action. -/
def readings : Instant × Action → List Instant
  | (t, .clientDatagram _ _ created now _ _) => [created, now, t]
  | (t, .insertRow now evictNow _) => [now, evictNow, t]
  | (t, _) => [t]

/-- The clock does not run backwards. -/
def Clocked (acts : List (Instant × Action)) : Prop :=
  (acts.flatMap readings).Pairwise (· ≤ ·)

instance (acts : List (Instant × Action)) : Decidable (Clocked acts) :=
  inferInstanceAs (Decidable (List.Pairwise _ _))

/-- No datagram is matched to a query that is as old as the time to live of pending queries. -/
def ExpiresPending (stripAaaa : Bool) (table : DnsTable) (acts : List (Instant × Action)) : Prop :=
  ∀ before t datagram after s id name entry map,
    acts = before ++ (t, .upstreamDatagram datagram) :: after →
    (system stripAaaa table).run (before.map Prod.snd) = some s →
    readerMatch s.pending datagram = some (id, name, entry, map) →
      t < entry.created + pendingQueryTtl

/-- Each query that a datagram answers too late was dropped since it was inserted. -/
def DroppedInTime (stripAaaa : Bool) (table : DnsTable) (acts : List (Instant × Action)) : Prop :=
  ∀ before t datagram after id entry,
    acts = before ++ (t, .upstreamDatagram datagram) :: after →
    Answers datagram id entry → entry.created + pendingQueryTtl ≤ t →
      ¬ (system stripAaaa table).Since (fun s a => Enters stripAaaa id entry s a)
        (fun s a => Drops stripAaaa id entry s a) (before.map Prod.snd)

section Runs
variable {stripAaaa : Bool} {table : DnsTable}

/-- An entry is pending exactly when it was put there and not dropped since. -/
theorem lookup_iff_since {acts : List Action} {s : State} {id : UInt16} {entry : PendingQuery}
    (hrun : (system stripAaaa table).run acts = some s) :
    s.pending.lookup id = some entry ↔
      (system stripAaaa table).Since (fun s a => Enters stripAaaa id entry s a)
        (fun s a => Drops stripAaaa id entry s a) acts := by
  refine System.iff_since_of_run (S := system stripAaaa table)
    (P := fun s => s.pending.lookup id = some entry) ?_ ?_ acts s hrun
  · simp [system, initial]
  · exact fun s a t _ hstep => pending_step hstep

/-- Pending queries expire in a run exactly when each query that is answered too late was
dropped before, by another query or by an earlier answer. The clock may read anything. -/
theorem expiresPending_iff (acts : List (Instant × Action)) (s : State)
    (hrun : (system stripAaaa table).run (acts.map Prod.snd) = some s) :
    ExpiresPending stripAaaa table acts ↔ DroppedInTime stripAaaa table acts := by
  constructor
  · intro hexpires before t datagram after id entry hacts hanswers hlate hsince
    rw [hacts, List.map_append] at hrun
    obtain ⟨u, hu, _⟩ := System.exists_prefix_of_run hrun
    have hlookup := (lookup_iff_since hu).mpr hsince
    obtain ⟨name, map, hmatch⟩ := readerMatch_iff_answers.mpr ⟨hlookup, hanswers⟩
    have hearly := hexpires before t datagram after u id name entry map hacts hu hmatch
    exact Nat.not_lt.mpr hlate hearly
  · intro hdropped before t datagram after u id name entry map hacts hu hmatch
    obtain ⟨hlookup, hanswers⟩ := readerMatch_iff_answers.mp ⟨name, map, hmatch⟩
    by_contra hlate
    exact hdropped before t datagram after id entry hacts hanswers (Nat.not_lt.mp hlate)
      ((lookup_iff_since hu).mp hlookup)

end Runs

/-- A query at time zero, and its answer at the given time. -/
def sampleAnswered (t : Instant) : List (Instant × Action) :=
  (sampleForward (sampleQuery questionA)).map (fun a => (0, a)) ++
    [(t, .upstreamDatagram answerA)]

theorem expiresPending_iff_sample : ∃ s,
    (system false ∅).run ((sampleAnswered (fromSecs 1)).map Prod.snd) = some s ∧
    s.accepted.map Acceptance.datagram = [answerA] ∧ Clocked (sampleAnswered (fromSecs 1)) ∧
    ExpiresPending false ∅ (sampleAnswered (fromSecs 1)) := by
  have hrun : ((system false ∅).run ((sampleAnswered (fromSecs 1)).map Prod.snd)).map
      (fun s => s.accepted.map Acceptance.datagram) = some [answerA] := by
    decide +kernel
  obtain ⟨s, hs, haccepted⟩ := Option.map_eq_some_iff.mp hrun
  refine ⟨s, hs, haccepted, by decide, (expiresPending_iff _ s hs).mpr ?_⟩
  intro before t datagram after id entry hacts _ hlate
  have hmem : t ∈ (sampleAnswered (fromSecs 1)).map Prod.fst := by simp [hacts]
  have htime : ∀ t ∈ (sampleAnswered (fromSecs 1)).map Prod.fst, t < pendingQueryTtl := by
    decide
  exact absurd (Nat.le_trans (Nat.le_add_left _ _) hlate) (Nat.not_le.mpr (htime t hmem))

/-- On a network where no other query arrives, an answer that is an hour late is accepted. -/
theorem not_expiresPending_idle : ∃ s,
    (system false ∅).run ((sampleAnswered (fromSecs 3600)).map Prod.snd) = some s ∧
    s.accepted.map Acceptance.datagram = [answerA] ∧ Clocked (sampleAnswered (fromSecs 3600)) ∧
    ¬ ExpiresPending false ∅ (sampleAnswered (fromSecs 3600)) := by
  have hrun : ((system false ∅).run ((sampleAnswered (fromSecs 3600)).map Prod.snd)).map
      (fun s => s.accepted.map Acceptance.datagram) = some [answerA] := by
    decide +kernel
  obtain ⟨s, hs, haccepted⟩ := Option.map_eq_some_iff.mp hrun
  refine ⟨s, hs, haccepted, by decide, ?_⟩
  intro hexpires
  have hbefore : ((system false ∅).run (sampleForward (sampleQuery questionA))).map
      (fun s => (readerMatch s.pending answerA).map (fun found => found.2.2.1.created)) =
        some (some 0) := by
    decide +kernel
  obtain ⟨u, hu, hfound⟩ := Option.map_eq_some_iff.mp hbefore
  obtain ⟨⟨id, name, entry, map⟩, hmatch, hcreated⟩ := Option.map_eq_some_iff.mp hfound
  have hearly := hexpires ((sampleForward (sampleQuery questionA)).map (fun a => (0, a)))
    (fromSecs 3600) answerA [] u id name entry map rfl hu hmatch
  rw [hcreated] at hearly
  exact absurd hearly (by decide)

end TransProxy.Dns.Udp
