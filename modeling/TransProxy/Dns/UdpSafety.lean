import TransProxy.Library.Lists
import TransProxy.Dns.Udp

/-!
# Every relayed datagram answers one query of its own

The invariant ties the pending map to the history of client queries. It is kept
by inserts, sweeps, evictions and takes, in whatever order the two tasks and an
adversarial upstream make them happen.
-/
namespace TransProxy.Dns.Udp
open Library Net

def ReaderTask.inFlight : ReaderTask → List Acceptance
  | .receiving => []
  | .resolving acceptance _ => [acceptance]

theorem ReaderTask.eq_receiving {r : ReaderTask} (h : r.inFlight.length = 0) : r = .receiving := by
  cases r with
  | receiving => rfl
  | resolving a ips => cases h

structure Inv (s : State) : Prop where
  /-- A query in flight has its own entry in the pending map. -/
  owned : ∀ o ∈ s.outstanding, ∃ q entry,
    s.queries[o.query]? = some q ∧ s.pending.lookup o.id = some entry ∧ Records q entry
  covered : ∀ id ∈ s.pending, ∃ o ∈ s.outstanding, o.id = id
  distinctIds : (s.outstanding.map Outstanding.id).Nodup
  /-- A query is in flight or answered, once. -/
  distinctQueries :
    (s.outstanding.map (fun o => some o.query) ++ s.accepted.map Acceptance.query).Nodup
  answers : ∀ a ∈ s.accepted, ∃ i q,
    a.query = some i ∧ s.queries[i]? = some q ∧ Records q a.entry
  relays : (s.relayed.map Reply.acceptance ++ s.reader.inFlight).Sublist s.accepted
  restored : ∀ r ∈ s.relayed, r.addr = r.acceptance.entry.clientAddr ∧
    r.data = setTxId r.acceptance.datagram r.acceptance.entry.clientTxId

theorem inv_initial (table : DnsTable) : Inv (initial table) := by
  constructor <;> simp [initial, ReaderTask.inFlight, AList.notMem_empty]

/-- Sweeping and evicting only shrinks the map, and the history follows it. -/
theorem Inv.purge {s : State} (hs : Inv s) {survivors : PendingMap}
    (hsub : ∀ id p, survivors.lookup id = some p → s.pending.lookup id = some p) :
    Inv (s.purge survivors) where
  owned := by
    intro o ho
    obtain ⟨hmem, hsurvives⟩ := List.mem_filter.mp ho
    obtain ⟨q, entry, hq, hentry, hrec⟩ := hs.owned o hmem
    obtain ⟨p, hp⟩ := HashMap.exists_lookup_of_mem (of_decide_eq_true hsurvives)
    have hsame : p = entry := Option.some.inj ((hsub _ _ hp).symm.trans hentry)
    exact ⟨q, entry, hq, hsame ▸ hp, hrec⟩
  covered := by
    intro id hid
    obtain ⟨p, hp⟩ := HashMap.exists_lookup_of_mem hid
    have hold := HashMap.mem_of_lookup (hsub id p hp)
    obtain ⟨o, ho, rfl⟩ := hs.covered id hold
    exact ⟨o, List.mem_filter.mpr ⟨ho, decide_eq_true hid⟩, rfl⟩
  distinctIds := hs.distinctIds.sublist (List.filter_sublist.map _)
  distinctQueries :=
    hs.distinctQueries.sublist ((List.filter_sublist.map _).append (List.Sublist.refl _))
  answers := hs.answers
  relays := hs.relays
  restored := hs.restored

/-- The number of a query in flight or answered is that of a query received. -/
theorem Inv.query_lt {s : State} (hs : Inv s) {i : ℕ}
    (h : some i ∈ s.outstanding.map (fun o => some o.query) ++ s.accepted.map Acceptance.query) :
    i < s.queries.length := by
  rw [List.mem_append, List.mem_map, List.mem_map] at h
  obtain ⟨o, ho, hi⟩ | ⟨a, ha, hi⟩ := h
  · obtain ⟨q, _, hq, _⟩ := hs.owned o ho
    obtain rfl := Option.some.inj hi
    exact (List.getElem?_eq_some_iff.mp hq).1
  · obtain ⟨j, q, hj, hq, _⟩ := hs.answers a ha
    obtain rfl := Option.some.inj (hj.symm.trans hi)
    exact (List.getElem?_eq_some_iff.mp hq).1

theorem Inv.enqueue {s : State} (hs : Inv s) {q : ClientQuery} {entry : PendingQuery} {id : UInt16}
    (hfree : id ∉ s.pending) (hrec : Records q entry) : Inv (s.enqueue q entry id) where
  owned := by
    intro o ho
    rcases List.mem_append.mp ho with hold | hnew
    · obtain ⟨q', entry', hq', hentry', hrec'⟩ := hs.owned o hold
      have hne : o.id ≠ id := by
        rintro rfl
        exact hfree (HashMap.mem_of_lookup hentry')
      refine ⟨q', entry', getElem?_snoc_of_some hq', ?_, hrec'⟩
      rw [State.enqueue, HashMap.lookup_insert_eq, if_neg hne]
      exact hentry'
    · obtain rfl := List.mem_singleton.mp hnew
      refine ⟨q, entry, by simp [State.enqueue], ?_, hrec⟩
      rw [State.enqueue, HashMap.lookup_insert_eq, if_pos rfl]
  covered := by
    intro id' hid'
    rcases AList.mem_insert _ |>.mp hid' with rfl | hold
    · exact ⟨_, List.mem_append_right _ (List.mem_singleton_self _), rfl⟩
    · obtain ⟨o, ho, rfl⟩ := hs.covered id' hold
      exact ⟨o, List.mem_append_left _ ho, rfl⟩
  distinctIds := by
    rw [State.enqueue, List.map_append, List.nodup_append]
    refine ⟨hs.distinctIds, by simp, ?_⟩
    intro x hx y hy
    obtain ⟨o, ho, rfl⟩ := List.mem_map.mp hx
    obtain ⟨_, entry', _, hentry', _⟩ := hs.owned o ho
    simp only [List.map_cons, List.map_nil, List.mem_singleton] at hy
    subst hy
    intro heq
    exact hfree (heq ▸ HashMap.mem_of_lookup hentry')
  distinctQueries := by
    -- the new number is past every number in use
    have hnew : some s.queries.length ∉
        s.outstanding.map (fun o => some o.query) ++ s.accepted.map Acceptance.query :=
      fun hmem => (hs.query_lt hmem).false
    have hperm : (s.outstanding.map (fun o => some o.query) ++ [some s.queries.length] ++
        s.accepted.map Acceptance.query).Perm (some s.queries.length ::
          (s.outstanding.map (fun o => some o.query) ++ s.accepted.map Acceptance.query)) := by
      rw [List.append_assoc]
      exact List.perm_middle
    rw [State.enqueue, List.map_append]
    exact hperm.nodup_iff.mpr (List.nodup_cons.mpr ⟨hnew, hs.distinctQueries⟩)
  answers := by
    intro a ha
    obtain ⟨i, q', hi, hq', hrec'⟩ := hs.answers a ha
    exact ⟨i, q', hi, getElem?_snoc_of_some hq', hrec'⟩
  relays := hs.relays
  restored := hs.restored

theorem Inv.clientReceive {s : State} (hs : Inv s) (stripAaaa : Bool) (addr : SocketAddr)
    (packet : Bytes) (created now : Instant) (order : PendingOrder) (draws : ℕ → UInt16) :
    Inv (clientReceive stripAaaa s addr packet created now order draws) := by
  have hsub : ∀ id p, (pendingSurvivors order s.pending now).lookup id = some p →
      s.pending.lookup id = some p := fun _ _ => pendingSurvivors_lookup
  obtain ⟨out, h⟩ | h | ⟨entry, id, hrec, hfree, h⟩ :=
    clientReceive_cases stripAaaa s addr packet created now order draws
  · rw [h]
    exact ⟨hs.owned, hs.covered, hs.distinctIds, hs.distinctQueries, hs.answers, hs.relays,
      hs.restored⟩
  · rw [h]
    exact hs.purge hsub
  · rw [h]
    exact (hs.purge hsub).enqueue hfree hrec

/-- The pending entry that matches is the entry of exactly one query in flight. -/
theorem Inv.owner_of_lookup {s : State} (hs : Inv s) {id : UInt16} {entry : PendingQuery}
    (h : s.pending.lookup id = some entry) :
    ∃ o ∈ s.outstanding, ∃ q, s.outstanding.find? (fun o => o.id == id) = some o ∧ o.id = id ∧
      s.queries[o.query]? = some q ∧ Records q entry := by
  obtain ⟨o, ho, hid⟩ := hs.covered id (HashMap.mem_of_lookup h)
  cases hfind : s.outstanding.find? (fun o => o.id == id) with
  | none =>
    have hno := List.find?_eq_none.mp hfind o ho
    simp [hid] at hno
  | some found =>
    have hfid : found.id = id := by simpa using List.find?_some hfind
    have hmem := List.mem_of_find?_eq_some hfind
    obtain ⟨q, entry', hq, hentry', hrec⟩ := hs.owned found hmem
    rw [hfid, h] at hentry'
    obtain rfl := Option.some.inj hentry'
    exact ⟨found, hmem, q, rfl, hfid, hq, hrec⟩

/-- Moving one query from in flight to answered keeps the numbers distinct. -/
theorem Inv.distinctQueries_take {s : State} (hs : Inv s) {o : Outstanding}
    (ho : o ∈ s.outstanding) {a : Acceptance} (ha : a.query = some o.query) :
    ((s.outstanding.filter (fun o' => o'.id != o.id)).map (fun o' => some o'.query) ++
      (s.accepted ++ [a]).map Acceptance.query).Nodup := by
  obtain ⟨hout, hacc, hdisj⟩ := List.nodup_append.mp hs.distinctQueries
  have hnew : some o.query ∉
      (s.outstanding.filter (fun o' => o'.id != o.id)).map (fun o' => some o'.query) ++
        s.accepted.map Acceptance.query := by
    rw [List.mem_append, not_or]
    constructor
    · intro hmem
      obtain ⟨o', ho', hquery⟩ := List.mem_map.mp hmem
      obtain ⟨hmem', hne⟩ := List.mem_filter.mp ho'
      have hsame : o' = o := List.inj_on_of_nodup_map hout hmem' ho hquery
      simp [hsame] at hne
    · intro hmem
      exact hdisj _ (List.mem_map_of_mem ho) _ hmem rfl
  have hrest : ((s.outstanding.filter (fun o' => o'.id != o.id)).map (fun o' => some o'.query) ++
      s.accepted.map Acceptance.query).Nodup :=
    hs.distinctQueries.sublist ((List.filter_sublist.map _).append (List.Sublist.refl _))
  rw [List.map_append, List.map_singleton, ha, ← List.append_assoc]
  exact (List.perm_append_singleton _ _).nodup_iff.mpr (List.nodup_cons.mpr ⟨hnew, hrest⟩)

/-- An accepted datagram answers the one query in flight that its entry was made for. -/
theorem Inv.accept {s : State} (hs : Inv s) (hidle : s.reader = .receiving) {id : UInt16}
    {entry : PendingQuery} (hlookup : s.pending.lookup id = some entry) (datagram : Bytes)
    (name : String) :
    Inv (s.accept id ⟨(s.outstanding.find? (fun o => o.id == id)).map Outstanding.query, datagram,
      name, entry⟩) := by
  obtain ⟨o, ho, q, hfind, rfl, hq, hrec⟩ := hs.owner_of_lookup hlookup
  rw [hfind, Option.map_some]
  constructor
  · intro o' ho'
    obtain ⟨hmem, hne⟩ := List.mem_filter.mp ho'
    obtain ⟨q', entry', hq', hentry', hrec'⟩ := hs.owned o' hmem
    refine ⟨q', entry', hq', ?_, hrec'⟩
    rw [State.accept, HashMap.lookup_erase_eq, if_neg (by simpa using hne)]
    exact hentry'
  · intro id hid
    obtain ⟨hne, hold⟩ := AList.mem_erase.mp hid
    obtain ⟨o', ho', rfl⟩ := hs.covered id hold
    exact ⟨o', List.mem_filter.mpr ⟨ho', by simpa using hne⟩, rfl⟩
  · exact hs.distinctIds.sublist (List.filter_sublist.map _)
  · exact hs.distinctQueries_take ho rfl
  · intro a ha
    rcases List.mem_append.mp ha with hold | hnew
    · exact hs.answers a hold
    · obtain rfl := List.mem_singleton.mp hnew
      exact ⟨o.query, q, rfl, hq, hrec⟩
  · have hrelays := hs.relays
    rw [hidle] at hrelays
    simpa [State.accept, ReaderTask.inFlight] using hrelays
  · exact hs.restored

theorem Inv.readerReceive {s : State} (hs : Inv s) (hidle : s.reader = .receiving)
    (datagram : Bytes) : Inv (readerReceive s datagram) := by
  obtain ⟨_, h⟩ | ⟨id, name, entry, map, hmatch, h⟩ := readerReceive_cases s datagram
  · rw [h]
    exact hs
  · obtain ⟨_, _, _, _, htake⟩ := readerMatch_eq_some_iff.mp hmatch
    obtain ⟨hlookup, _, _, _⟩ := pendingTakeMatch_eq_some_iff.mp htake
    rw [h]
    exact hs.accept hidle hlookup datagram name

/-- Fields that no clause of the invariant reads. -/
theorem Inv.congr {s : State} (hs : Inv s) (table : DnsTable) (client : ClientTask)
    (sentUpstream : List Bytes) (sentNodata : List (SocketAddr × Bytes)) :
    Inv { s with table, client, sentUpstream, sentNodata } :=
  ⟨hs.owned, hs.covered, hs.distinctIds, hs.distinctQueries, hs.answers, hs.relays, hs.restored⟩

theorem Inv.reply {s : State} (hs : Inv s) {acceptance : Acceptance} {ips : List IpAddr}
    (hreader : s.reader = .resolving acceptance ips) (ok : Bool) :
    Inv { s with
      reader := .receiving
      relayed := if ok then s.relayed ++ [⟨acceptance, acceptance.entry.clientAddr,
        setTxId acceptance.datagram acceptance.entry.clientTxId⟩] else s.relayed } := by
  have hrelays := hs.relays
  rw [hreader] at hrelays
  refine ⟨hs.owned, hs.covered, hs.distinctIds, hs.distinctQueries, hs.answers, ?_, ?_⟩
  · cases ok with
    | false =>
      simpa [ReaderTask.inFlight] using (List.sublist_append_left _ _).trans hrelays
    | true => simpa [ReaderTask.inFlight] using hrelays
  · intro r hr
    cases ok with
    | false => exact hs.restored r hr
    | true =>
      rcases List.mem_append.mp hr with hold | hnew
      · exact hs.restored r hold
      · obtain rfl := List.mem_singleton.mp hnew
        exact ⟨rfl, rfl⟩

/-- Every action keeps the invariant. -/
theorem Inv.step {s t : State} {stripAaaa : Bool} {act : Action} (hs : Inv s)
    (h : step stripAaaa s act = some t) : Inv t := by
  cases act with
  | clientDatagram addr packet created now order draws =>
    obtain ⟨_, rfl⟩ := step_clientDatagram h
    exact hs.clientReceive stripAaaa addr packet created now order draws
  | clientError =>
    obtain rfl := step_clientError h
    exact hs.congr _ _ _ _
  | forward ok =>
    obtain ⟨sent, rfl⟩ := step_forward h
    exact hs.congr _ _ _ _
  | upstreamDatagram datagram =>
    obtain ⟨hidle, rfl⟩ := step_upstreamDatagram h
    exact hs.readerReceive hidle datagram
  | insertRow now evictNow order =>
    obtain ⟨acceptance, ip, ips, rows, hreader, rfl⟩ := step_insertRow h
    have hrelays := hs.relays
    rw [hreader] at hrelays
    exact ⟨hs.owned, hs.covered, hs.distinctIds, hs.distinctQueries, hs.answers, hrelays,
      hs.restored⟩
  | reply ok =>
    obtain ⟨acceptance, hreader, rfl⟩ := step_reply h
    exact hs.reply hreader ok

theorem inv_of_run {stripAaaa : Bool} {table : DnsTable} {acts : List Action} {s : State}
    (h : (system stripAaaa table).run acts = some s) : Inv s :=
  System.Reachable.invariant (S := system stripAaaa table) (inv_initial table)
    (fun _ _ _ hs hstep => hs.step hstep) ⟨acts, h⟩

/-- A client datagram is the only action that adds a query, its own. -/
theorem step_queries {s t : State} {stripAaaa : Bool} {act : Action}
    (h : step stripAaaa s act = some t) :
    t.queries = s.queries ∨ ∃ addr packet created now order draws,
      act = .clientDatagram addr packet created now order draws ∧
        t.queries = s.queries ++ [⟨addr, packet⟩] := by
  cases act with
  | clientDatagram addr packet created now order draws =>
    obtain ⟨_, rfl⟩ := step_clientDatagram h
    obtain ⟨out, h⟩ | h | ⟨entry, id, hrec, hfree, h⟩ :=
      clientReceive_cases stripAaaa s addr packet created now order draws
    · left; rw [h]
    · left; rw [h]; rfl
    · right
      refine ⟨addr, packet, created, now, order, draws, rfl, ?_⟩
      rw [h]
      rfl
  | clientError => left; rw [step_clientError h]
  | forward ok => left; obtain ⟨sent, rfl⟩ := step_forward h; rfl
  | upstreamDatagram datagram =>
    left
    obtain ⟨_, rfl⟩ := step_upstreamDatagram h
    obtain ⟨_, h⟩ | ⟨_, _, _, _, _, h⟩ := readerReceive_cases s datagram
    · rw [h]
    · rw [h]
      rfl
  | insertRow now evictNow order => left; obtain ⟨_, _, _, _, _, rfl⟩ := step_insertRow h; rfl
  | reply ok => left; obtain ⟨_, _, rfl⟩ := step_reply h; rfl

/-- A matching upstream datagram is the only action that adds an acceptance. -/
theorem step_accepted {s t : State} {stripAaaa : Bool} {act : Action}
    (h : step stripAaaa s act = some t) {a : Acceptance} (ha : a ∈ t.accepted) :
    a ∈ s.accepted ∨ ∃ txId map, act = .upstreamDatagram a.datagram ∧
      readerMatch s.pending a.datagram = some (txId, a.name, a.entry, map) ∧
        a.query = (s.outstanding.find? (fun o => o.id == txId)).map Outstanding.query := by
  cases act with
  | clientDatagram addr packet created now order draws =>
    obtain ⟨_, rfl⟩ := step_clientDatagram h
    obtain ⟨out, h⟩ | h | ⟨entry, id, hrec, hfree, h⟩ :=
      clientReceive_cases stripAaaa s addr packet created now order draws <;>
      exact .inl (by rw [h] at ha; exact ha)
  | clientError => left; rw [step_clientError h] at ha; exact ha
  | forward ok => left; obtain ⟨sent, rfl⟩ := step_forward h; exact ha
  | upstreamDatagram datagram =>
    obtain ⟨_, rfl⟩ := step_upstreamDatagram h
    obtain ⟨_, h⟩ | ⟨txId, name, entry, map, hmatch, h⟩ := readerReceive_cases s datagram
    · rw [h] at ha
      exact .inl ha
    · rw [h] at ha
      rcases List.mem_append.mp ha with hold | hnew
      · exact .inl hold
      · obtain rfl := List.mem_singleton.mp hnew
        exact .inr ⟨txId, map, rfl, hmatch, rfl⟩
  | insertRow now evictNow order => left; obtain ⟨_, _, _, _, _, rfl⟩ := step_insertRow h; exact ha
  | reply ok => left; obtain ⟨_, _, rfl⟩ := step_reply h; exact ha

/-- The history only grows. -/
theorem step_history {stripAaaa : Bool} {s t : State} {act : Action}
    (h : step stripAaaa s act = some t) : s.accepted <+: t.accepted := by
  cases act with
  | clientDatagram addr packet created now order draws =>
    obtain ⟨_, rfl⟩ := step_clientDatagram h
    have hkeep : (clientReceive stripAaaa s addr packet created now order draws).accepted =
        s.accepted := by
      rcases clientReceive_cases stripAaaa s addr packet created now order draws with
        ⟨out, h⟩ | h | ⟨entry, id, hrec, hfree, h⟩ <;>
        exact (congrArg State.accepted h).trans rfl
    simp [hkeep]
  | clientError => simp [step_clientError h]
  | forward ok => obtain ⟨sent, rfl⟩ := step_forward h; exact List.prefix_rfl
  | upstreamDatagram datagram =>
    obtain ⟨_, rfl⟩ := step_upstreamDatagram h
    obtain ⟨_, h⟩ | ⟨_, _, _, _, _, h⟩ := readerReceive_cases s datagram
    · exact (congrArg State.accepted h).symm ▸ List.prefix_rfl
    · rw [h]
      exact List.prefix_append _ _
  | insertRow now evictNow order =>
    obtain ⟨_, _, _, _, _, rfl⟩ := step_insertRow h
    exact List.prefix_rfl
  | reply ok => obtain ⟨_, _, rfl⟩ := step_reply h; exact List.prefix_rfl

/-- A step leaves the table alone or inserts one row of an accepted datagram. -/
theorem step_table_cases {s t : State} {stripAaaa : Bool} {act : Action}
    (h : step stripAaaa s act = some t) : t.table = s.table ∨
      ∃ acceptance ip ips order now evictNow, s.reader = .resolving acceptance (ip :: ips) ∧
        t.table =
          s.table.insert order ip acceptance.name (tableTtl acceptance.datagram) now evictNow := by
  by_cases hrow : ∃ now evictNow order, act = .insertRow now evictNow order
  · obtain ⟨now, evictNow, order, rfl⟩ := hrow
    obtain ⟨acceptance, ip, ips, _, hreader, _⟩ := step_insertRow h
    exact .inr ⟨acceptance, ip, ips, order, now, evictNow, hreader, table_of_insertRow hreader h⟩
  · left
    apply table_of_step h
    intro now evictNow order heq
    exact hrow ⟨now, evictNow, order, heq⟩

/-- The table changes only while the rows of an accepted datagram are inserted. -/
theorem step_table {s t : State} {stripAaaa : Bool} {act : Action}
    (h : step stripAaaa s act = some t) (hne : t.table ≠ s.table) :
    ∃ a ips, s.reader = .resolving a ips := by
  rcases step_table_cases h with hsame | ⟨a, ip, ips, _, _, _, hreader, _⟩
  · exact absurd hsame hne
  · exact ⟨a, ip :: ips, hreader⟩

/-- The reader works on a datagram that it accepted for the name in it. -/
def State.ReadsAccepted (s : State) : Prop := ∀ a ips, s.reader = .resolving a ips →
  a ∈ s.accepted ∧ parseQueryName a.datagram = some a.name

theorem State.ReadsAccepted.step {s t : State} {stripAaaa : Bool} {act : Action}
    (hs : s.ReadsAccepted) (h : step stripAaaa s act = some t) : t.ReadsAccepted := by
  cases act with
  | clientDatagram addr packet created now order draws =>
    obtain ⟨_, rfl⟩ := step_clientDatagram h
    obtain ⟨out, h⟩ | h | ⟨entry, id, _, _, h⟩ :=
      clientReceive_cases stripAaaa s addr packet created now order draws
    · rw [h]; exact hs
    · rw [h]; exact hs
    · rw [h]; exact hs
  | clientError =>
    obtain rfl := step_clientError h
    exact hs
  | forward ok =>
    obtain ⟨sent, rfl⟩ := step_forward h
    exact hs
  | upstreamDatagram datagram =>
    obtain ⟨_, rfl⟩ := step_upstreamDatagram h
    obtain ⟨_, h⟩ | ⟨txId, name, entry, map, hmatch, h⟩ := readerReceive_cases s datagram
    · rw [h]
      exact hs
    · obtain ⟨_, _, _, hname, _⟩ := readerMatch_eq_some_iff.mp hmatch
      rw [h]
      rintro a ips ⟨⟩
      exact ⟨List.mem_append_right _ (List.mem_singleton_self _), hname⟩
  | insertRow now evictNow order =>
    obtain ⟨acceptance, ip, ips, rows, hreader, rfl⟩ := step_insertRow h
    rintro a ips ⟨⟩
    exact hs _ _ hreader
  | reply ok =>
    obtain ⟨_, _, rfl⟩ := step_reply h
    rintro a ips ⟨⟩

section Runs
variable {stripAaaa : Bool} {table : DnsTable}

/-- Every query of the history is a datagram that some client sent. -/
theorem received_of_run {acts : List Action} {s : State}
    (h : (system stripAaaa table).run acts = some s) : ∀ q ∈ s.queries,
      ∃ created now order draws,
        .clientDatagram q.addr q.packet created now order draws ∈ acts := by
  refine System.run_induction (P := fun acts s => ∀ q ∈ s.queries, ∃ created now order draws,
    .clientDatagram q.addr q.packet created now order draws ∈ acts) ?_ ?_ acts s h
  · intro q hq
    cases hq
  · intro acts s act t _ ih hstep q hq
    rcases step_queries hstep with hsame | ⟨addr, packet, created, now, order, draws, rfl, hadd⟩
    · obtain ⟨created, now, order, draws, hmem⟩ := ih q (hsame ▸ hq)
      exact ⟨created, now, order, draws, List.mem_append_left _ hmem⟩
    · rw [hadd] at hq
      rcases List.mem_append.mp hq with hold | hnew
      · obtain ⟨created, now, order, draws, hmem⟩ := ih q hold
        exact ⟨created, now, order, draws, List.mem_append_left _ hmem⟩
      · obtain rfl := List.mem_singleton.mp hnew
        exact ⟨created, now, order, draws, List.mem_append_right _ (List.mem_singleton_self _)⟩

/-- During the run the datagram arrived and `pending_take_match` gave up for it the
entry of the `i`-th client query, which had arrived before. -/
def AcceptedIn (stripAaaa : Bool) (table : DnsTable) (acts : List Action) (a : Acceptance)
    (i : ℕ) (q : ClientQuery) : Prop :=
  ∃ before after t, acts = before ++ .upstreamDatagram a.datagram :: after ∧
    (system stripAaaa table).run before = some t ∧
    (∃ (h : 12 ≤ a.datagram.length) (map : _), pendingTakeMatch t.pending
      (u16At a.datagram 0 (by omega)) a.name ((parseQueryType a.datagram).getD 0) =
        some (a.entry, map)) ∧
    a.query = some i ∧ t.queries[i]? = some q ∧ Records q a.entry ∧
    ∃ created now order draws, .clientDatagram q.addr q.packet created now order draws ∈ before

theorem acceptedIn_of_run {acts : List Action} {s : State}
    (h : (system stripAaaa table).run acts = some s) : ∀ a ∈ s.accepted,
      ∃ i q, AcceptedIn stripAaaa table acts a i q := by
  refine System.run_induction (P := fun acts s => ∀ a ∈ s.accepted,
    ∃ i q, AcceptedIn stripAaaa table acts a i q) ?_ ?_ acts s h
  · intro a ha
    cases ha
  · intro acts s act t hrun ih hstep a ha
    rcases step_accepted hstep ha with hold | ⟨txId, map, rfl, hmatch, hquery⟩
    · obtain ⟨i, q, before, after, u, rfl, hu⟩ := ih a hold
      exact ⟨i, q, before, after ++ [act], u, by simp, hu⟩
    · have hs := inv_of_run hrun
      obtain ⟨hlen, _, rfl, _, htake⟩ := readerMatch_eq_some_iff.mp hmatch
      obtain ⟨hlookup, _⟩ := pendingTakeMatch_eq_some_iff.mp htake
      obtain ⟨o, ho, q, hfind, _, hq, hrec⟩ := hs.owner_of_lookup hlookup
      exact ⟨o.query, q, acts, [], s, by simp, hrun, ⟨Nat.le_of_not_lt hlen, map, htake⟩,
        by rw [hquery, hfind]; rfl, hq, hrec,
        received_of_run hrun q (List.mem_of_getElem? hq)⟩

/-- The reader works on a datagram that it accepted. -/
theorem Inv.inFlight_mem {s : State} (hs : Inv s) {a : Acceptance} {ips : List IpAddr}
    (h : s.reader = .resolving a ips) : a ∈ s.accepted := by
  have hrelays := hs.relays
  rw [h] at hrelays
  exact hrelays.subset (List.mem_append_right _ (List.mem_singleton_self a))

theorem setTxId_client {q : ClientQuery} {entry : PendingQuery} (h : Records q entry)
    (datagram : Bytes) :
    setTxId datagram entry.clientTxId = q.packet.take 2 ++ datagram.drop 2 := by
  obtain ⟨hlen, _, hid, _⟩ := h
  rw [setTxId, hid, u16ToBeBytes_u16At_zero]

/-- What the relayed replies and the table owe to the queries and to the datagrams that
were accepted for them. -/
structure RelaySound (stripAaaa : Bool) (table : DnsTable) (acts : List Action) (s : State) :
    Prop where
  /-- A reply is an accepted datagram with the transaction ID of one earlier query in its
  first two bytes, sent to the address of that query. -/
  answers : ∀ r ∈ s.relayed, ∃ i q, AcceptedIn stripAaaa table acts r.acceptance i q ∧
    r.addr = q.addr ∧ r.data = q.packet.take 2 ++ r.acceptance.datagram.drop 2 ∧
      r.data.length = r.acceptance.datagram.length
  /-- No query is answered twice. -/
  once : (s.relayed.map (fun r => r.acceptance.query)).Nodup
  distinctIds : ∀ o ∈ s.outstanding, ∀ o' ∈ s.outstanding, o.id = o'.id → o.query = o'.query
  /-- The table changes only on behalf of a datagram accepted before. -/
  tableChange : ∀ before act after t t', acts = before ++ act :: after →
    (system stripAaaa table).run before = some t →
    (system stripAaaa table).step t act = some t' → t'.table ≠ t.table →
      ∃ a ips i q, t.reader = .resolving a ips ∧ AcceptedIn stripAaaa table before a i q

/-- Over every run of the two tasks, with any upstream datagrams and any identifiers
drawn, the relayed replies answer queries of their own. -/
theorem run_relays_own_answers (stripAaaa : Bool) (table : DnsTable) (acts : List Action)
    (s : State) (hrun : (system stripAaaa table).run acts = some s) :
    RelaySound stripAaaa table acts s := by
  have hs := inv_of_run hrun
  have hrelays : (s.relayed.map Reply.acceptance).Sublist s.accepted :=
    (List.sublist_append_left _ _).trans hs.relays
  constructor
  · intro r hr
    have hacc : r.acceptance ∈ s.accepted := hrelays.subset (List.mem_map_of_mem hr)
    obtain ⟨i, q, hin⟩ := acceptedIn_of_run hrun _ hacc
    obtain ⟨haddr, hdata⟩ := hs.restored r hr
    have hrec : Records q r.acceptance.entry := by
      obtain ⟨_, _, _, _, _, _, _, _, hrec, _⟩ := hin
      exact hrec
    have hlen : 12 ≤ r.acceptance.datagram.length := by
      obtain ⟨_, _, _, _, _, ⟨hlen, _⟩, _⟩ := hin
      exact hlen
    rw [setTxId_client hrec] at hdata
    refine ⟨i, q, hin, haddr.trans hrec.2.1, hdata, ?_⟩
    have h12 : 12 ≤ q.packet.length := hrec.1
    rw [hdata]
    simp
    omega
  · have hnodup := (List.nodup_append.mp hs.distinctQueries).2.1
    have hsub := hnodup.sublist (hrelays.map Acceptance.query)
    rwa [List.map_map] at hsub
  · intro o ho o' ho' hid
    rw [List.inj_on_of_nodup_map hs.distinctIds ho ho' hid]
  · intro before act after t t' _ ht hstep hne
    obtain ⟨a, ips, hreader⟩ := step_table hstep hne
    obtain ⟨i, q, hin⟩ := acceptedIn_of_run ht a ((inv_of_run ht).inFlight_mem hreader)
    exact ⟨a, ips, i, q, hreader, hin⟩

end Runs

def sampleClient : SocketAddr := .v4 (.new 192 0 2 7) 5353

/-- Identifier 0x1234 and one question, whose bytes are given. -/
def sampleQuery (question : Bytes) : Bytes :=
  [0x12, 0x34, 1, 0, 0, 1, 0, 0, 0, 0, 0, 0] ++ question

/-- The query arrives, is given the identifier 0xABCD and goes upstream. -/
def sampleForward (query : Bytes) : List Action :=
  [.clientDatagram sampleClient query 0 0 .stored (fun _ => 0xABCD), .forward true]

def questionA : Bytes := [1, 97, 0, 0, 1, 0, 1]

def answerA : Bytes :=
  [0xAB, 0xCD, 0x81, 0x80, 0, 1, 0, 1, 0, 0, 0, 0] ++ questionA ++
    [0xC0, 12, 0, 1, 0, 1, 0, 0, 0, 60, 0, 4, 192, 0, 2, 1]

theorem run_relays_own_answers_sample : ∃ s,
    (system false ∅).run (sampleForward (sampleQuery questionA) ++
      [.upstreamDatagram answerA, .insertRow 0 0 .stored, .reply true]) = some s ∧
    s.relayed.map Reply.addr = [sampleClient] ∧
    RelaySound false ∅ (sampleForward (sampleQuery questionA) ++
      [.upstreamDatagram answerA, .insertRow 0 0 .stored, .reply true]) s := by
  have hsent : ((system false ∅).run (sampleForward (sampleQuery questionA) ++
      [.upstreamDatagram answerA, .insertRow 0 0 .stored, .reply true])).map
        (fun s => s.relayed.map Reply.addr) = some [sampleClient] := by
    decide +kernel
  obtain ⟨s, hrun, haddr⟩ := Option.map_eq_some_iff.mp hsent
  exact ⟨s, hrun, haddr, run_relays_own_answers false ∅ _ s hrun⟩

end TransProxy.Dns.Udp
