import TransProxy.Dns.DohAddresses
import TransProxy.Dns.Forwarder

/-!
# What the table says is what the upstream said

All listeners write into one table. A run has a log of the answers that were taken from the
upstream and a log of the rows inserted. The table is what `DnsTable` makes of the rows, and
each row is an address of an answer to a question with the name of the row.
-/
namespace TransProxy.Dns.Forwarder
open Library Net Format

/-- An answer that is taken from the upstream, and the packet that has the question. -/
structure Exchange where
  question : Bytes
  answer : Bytes

/-- With a UDP upstream the question is read from the answer, which has to match. -/
def State.exchange (s : State) : Action → Option Exchange
  | .udp (.upstreamDatagram datagram) =>
    match s.datagrams with
    | .udp u => (Udp.readerMatch u.pending datagram).map (fun _ => ⟨datagram, datagram⟩)
    | .doh _ => none
  | .doh (.respond i (some answer)) =>
    match s.datagrams with
    | .udp _ => none
    | .doh d => d.leaders[i]?.map (fun l => ⟨l.request.query.packet, answer⟩)
  | .tcp k (.respond (some answer)) =>
    (s.tcp[k]?.bind (fun c => c.phase.query)).map (fun query => ⟨query, answer⟩)
  | _ => none

/-- A row: the packet that its name is read from, the response it is kept for, and one of
the addresses of that. -/
structure Resolution where
  packet : Bytes
  response : Bytes
  ip : IpAddr
  now : Instant

def Resolution.name (r : Resolution) : String := (parseQueryName r.packet).getD ""

def Resolution.write (r : Resolution) : Write IpAddr String :=
  ⟨r.ip, r.name, r.now, fromSecs (tableTtl r.response).toNat⟩

def State.resolution (s : State) : Action → Option Resolution
  | .udp (.insertRow now _ _) =>
    match s.datagrams with
    | .udp u =>
      match u.reader with
      | .resolving acceptance (ip :: _) => some ⟨acceptance.datagram, acceptance.datagram, ip, now⟩
      | _ => none
    | .doh _ => none
  | .doh (.row task now _ _) =>
    match s.datagrams with
    | .udp _ => none
    | .doh d =>
      match d.delivery task with
      | some ⟨reply, ip :: _⟩ => some ⟨reply.request.query.packet, reply.data, ip, now⟩
      | _ => none
  | .tcp k (.row now _ _) =>
    match s.tcp[k]? with
    | some ⟨.resolving query response (ip :: _), _, _, _⟩ => some ⟨query, response, ip, now⟩
    | _ => none
  | _ => none

def exchanges (upstream : DnsUpstream) (stripAaaa : Bool) (acts : List Action) : List Exchange :=
  (system upstream stripAaaa).log State.exchange acts

def resolutions (upstream : DnsUpstream) (stripAaaa : Bool) (acts : List Action) :
    List Resolution :=
  (system upstream stripAaaa).log State.resolution acts

/-- An answer to a question with the name of the row has the address of the row. -/
def Resolution.Heard (heard : List Exchange) (r : Resolution) : Prop :=
  ∃ x ∈ heard, parseQueryName x.question = parseQueryName r.packet ∧
    r.ip ∈ (parseIpRecords x.answer).getD [] ∧ parseIpRecords x.answer = parseIpRecords r.response

section Step
variable {upstream : DnsUpstream} {stripAaaa : Bool} {s t : State} {a : Action}

/-- A step inserts the row that it logs, and no other step changes the table. -/
theorem table_of_resolution (hs : Sound s) (h : step stripAaaa s a = some t) :
    s.resolution a = none ∧ t.table = s.table ∨
      ∃ r order evictNow, s.resolution a = some r ∧
        t.table = s.table.insert order r.ip r.name (tableTtl r.response) r.now evictNow := by
  cases a with
  | udp act =>
    obtain ⟨u, u', hu, hstep, rfl⟩ := step_udp h
    by_cases hrow : ∃ now evictNow order, act = .insertRow now evictNow order
    · obtain ⟨now, evictNow, order, rfl⟩ := hrow
      obtain ⟨acceptance, ip, ips, rows, hreader, _⟩ := Udp.step_insertRow hstep
      have hname := (hs.udp u hu _ _ hreader).2
      refine .inr ⟨⟨acceptance.datagram, acceptance.datagram, ip, now⟩, order, evictNow, ?_, ?_⟩
      · simp only [State.resolution, hu, hreader]
      · simp only [State.table, hu, Resolution.name, hname, Option.getD_some]
        exact Udp.table_of_insertRow hreader hstep
    · have hno : ∀ now evictNow order, act ≠ .insertRow now evictNow order :=
        fun now evictNow order heq => hrow ⟨now, evictNow, order, heq⟩
      refine .inl ⟨?_, by simp only [State.table, hu]; exact Udp.table_of_step hstep hno⟩
      cases act <;> first | rfl | exact absurd rfl (hno _ _ _)
  | doh act =>
    obtain ⟨d, d', hd, hstep, rfl⟩ := step_doh h
    by_cases hrow : ∃ task now evictNow order, act = .row task now evictNow order
    · obtain ⟨task, now, evictNow, order, rfl⟩ := hrow
      obtain ⟨reply, ip, ips, hdelivery, _⟩ := Doh.step_row hstep
      refine .inr ⟨⟨reply.request.query.packet, reply.data, ip, now⟩, order, evictNow, ?_, ?_⟩
      · simp only [State.resolution, hd, hdelivery]
      · simp only [State.table, hd]
        exact Doh.table_of_row hdelivery hstep
    · have hno : ∀ task now evictNow order, act ≠ .row task now evictNow order :=
        fun task now evictNow order heq => hrow ⟨task, now, evictNow, order, heq⟩
      refine .inl ⟨?_, by simp only [State.table, hd]; exact Doh.table_of_step hstep hno⟩
      cases act <;> first | rfl | exact absurd rfl (hno _ _ _ _)
  | accept =>
    obtain rfl := Option.some.inj h
    exact .inl ⟨rfl, rfl⟩
  | tcp k act =>
    obtain ⟨c, c', table, hc, hstep, rfl⟩ := step_tcp h
    by_cases hrow : ∃ now evictNow order, act = .row now evictNow order
    · obtain ⟨now, evictNow, order, rfl⟩ := hrow
      obtain ⟨query, response, ip, ips, hphase, rfl⟩ := Tcp.step_row hstep
      obtain ⟨phase, inbox, written, queries⟩ := c
      simp only at hphase
      subst hphase
      refine .inr ⟨⟨query, response, ip, now⟩, order, evictNow, ?_, ?_⟩
      · simp only [State.resolution, hc]
      · simp [State.table, Tcp.queryName, Resolution.name]
    · have hno : ∀ now evictNow order, act ≠ .row now evictNow order :=
        fun now evictNow order heq => hrow ⟨now, evictNow, order, heq⟩
      obtain rfl := Tcp.table_of_step hstep hno
      refine .inl ⟨?_, by simp [State.table]⟩
      cases act <;> first | rfl | exact absurd rfl (hno _ _ _)

/-- The addresses were in an answer to a query with the key. -/
def Known (heard : List Exchange) (key : Bytes) (ips : Option (List IpAddr)) : Prop :=
  ∃ x ∈ heard, 2 ≤ x.question.length ∧ cacheKey x.question = key ∧ parseIpRecords x.answer = ips

theorem Known.mono {heard more : List Exchange} {key : Bytes} {ips : Option (List IpAddr)}
    (h : Known heard key ips) : Known (heard ++ more) key ips := by
  obtain ⟨x, hx, hrest⟩ := h
  exact ⟨x, List.mem_append_left _ hx, hrest⟩

/-- Addresses that are still to enter the table are addresses of an answer. -/
def Pending (heard : List Exchange) (question answer : Bytes) (ips : List IpAddr) : Prop :=
  (⟨question, answer⟩ : Exchange) ∈ heard ∧ ∀ ip ∈ ips, ip ∈ (parseIpRecords answer).getD []

theorem Pending.mono {heard more : List Exchange} {question answer : Bytes} {ips : List IpAddr}
    (h : Pending heard question answer ips) : Pending (heard ++ more) question answer ips :=
  ⟨List.mem_append_left _ h.1, h.2⟩

theorem Pending.tail {heard : List Exchange} {question answer : Bytes} {ip : IpAddr}
    {ips : List IpAddr} (h : Pending heard question answer (ip :: ips)) :
    Pending heard question answer ips :=
  ⟨h.1, fun ip' hip' => h.2 ip' (List.mem_cons_of_mem ip hip')⟩

structure Sourced (heard : List Exchange) (s : State) : Prop where
  udp : ∀ u, s.datagrams = .udp u → ∀ acceptance ips, u.reader = .resolving acceptance ips →
    Pending heard acceptance.datagram acceptance.datagram ips
  doh : ∀ d, s.datagrams = .doh d → Doh.Sourced (Known heard) d
  tcp : ∀ c ∈ s.tcp, ∀ query response ips, c.phase = .resolving query response ips →
    Pending heard query response ips

theorem sourced_initial (upstream : DnsUpstream) : Sourced [] (initial upstream) := by
  cases upstream with
  | udp =>
    refine ⟨?_, by rintro d ⟨⟩, by simp [initial]⟩
    rintro u ⟨⟩ acceptance ips h
    cases h
  | https =>
    refine ⟨by rintro u ⟨⟩, ?_, by simp [initial]⟩
    rintro d ⟨⟩
    exact Doh.sourced_initial _ ∅

theorem Sourced.mono {heard : List Exchange} (h : Sourced heard s) (more : List Exchange) :
    Sourced (heard ++ more) s where
  udp u hu acceptance ips hreader := (h.udp u hu acceptance ips hreader).mono
  doh d hd := (h.doh d hd).mono fun _ _ hknown => hknown.mono
  tcp c hc query response ips hphase := (h.tcp c hc query response ips hphase).mono

/-- The reader works on an answer that it took, and on its addresses. -/
theorem Sourced.step_udp {heard : List Exchange} (h : Sourced heard s) {u u' : Udp.State}
    (hu : s.datagrams = .udp u) {act : Udp.Action} (hstep : Udp.step stripAaaa u act = some u')
    {acceptance : Udp.Acceptance} {ips : List IpAddr}
    (hreader : u'.reader = .resolving acceptance ips) :
    Pending (heard ++ (s.exchange (.udp act)).toList) acceptance.datagram acceptance.datagram
      ips := by
  have hkeep : u'.reader = u.reader → Pending (heard ++ (s.exchange (.udp act)).toList)
      acceptance.datagram acceptance.datagram ips :=
    fun hsame => (h.udp u hu acceptance ips (hsame ▸ hreader)).mono
  cases act with
  | clientDatagram addr packet created now order draws =>
    obtain ⟨_, rfl⟩ := Udp.step_clientDatagram hstep
    obtain ⟨out, heq⟩ | heq | ⟨entry, id, _, _, heq⟩ :=
      Udp.clientReceive_cases stripAaaa u addr packet created now order draws
    · exact hkeep (by rw [heq])
    · exact hkeep (by rw [heq]; rfl)
    · exact hkeep (by rw [heq]; rfl)
  | clientError =>
    obtain rfl := Udp.step_clientError hstep
    exact hkeep rfl
  | forward ok =>
    obtain ⟨sent, rfl⟩ := Udp.step_forward hstep
    exact hkeep rfl
  | upstreamDatagram datagram =>
    obtain ⟨hwaiting, rfl⟩ := Udp.step_upstreamDatagram hstep
    obtain ⟨_, heq⟩ | ⟨id, name, entry, map, hmatch, heq⟩ := Udp.readerReceive_cases u datagram
    · rw [heq, hwaiting] at hreader
      cases hreader
    · rw [heq] at hreader
      obtain ⟨rfl, rfl⟩ := Udp.ReaderTask.resolving.inj hreader
      refine ⟨List.mem_append_right _ ?_, fun ip hip => hip⟩
      simp [State.exchange, hu, hmatch]
  | insertRow now evictNow order =>
    obtain ⟨acceptance', ip, ips', rows, hold, rfl⟩ := Udp.step_insertRow hstep
    obtain ⟨rfl, rfl⟩ := Udp.ReaderTask.resolving.inj hreader
    exact (h.udp u hu _ _ hold).tail.mono
  | reply ok =>
    obtain ⟨_, _, rfl⟩ := Udp.step_reply hstep
    cases hreader

theorem Sourced.step_doh {heard : List Exchange} (hs : Sound s) (h : Sourced heard s)
    {d d' : Doh.State} (hd : s.datagrams = .doh d) {act : Doh.Action}
    (hstep : Doh.step stripAaaa d act = some d') :
    Doh.Sourced (Known (heard ++ (s.exchange (.doh act)).toList)) d' := by
  refine ((h.doh d hd).mono fun _ _ hknown => hknown.mono).step (hs.doh d hd) hstep ?_
  rintro i l response rfl hl
  have hlen := l.request.query.hlen
  refine ⟨⟨l.request.query.packet, response⟩, List.mem_append_right _ ?_, by dsimp only; omega,
    rfl, rfl⟩
  simp [State.exchange, hd, hl]

theorem Sourced.step_tcp {heard : List Exchange} (h : Sourced heard s) {k : ℕ}
    {c c' : Tcp.Connection} {table : DnsTable} (hc : s.tcp[k]? = some c) {act : Tcp.Action}
    (hstep : Tcp.step stripAaaa s.table c act = some (c', table)) {query response : Bytes}
    {ips : List IpAddr} (hphase' : c'.phase = .resolving query response ips) :
    Pending (heard ++ (s.exchange (.tcp k act)).toList) query response ips := by
  have hold := h.tcp c (List.mem_of_getElem? hc)
  cases (Tcp.step_cases hstep).1 with
  | arrive data => exact (hold query response ips hphase').mono
  | readLength hphase hinbox =>
    dsimp only [Tcp.gotLength] at hphase'
    split_ifs at hphase'
  | readQuery hphase hlen =>
    dsimp only [Tcp.gotQuery] at hphase'
    split at hphase'
    · split at hphase' <;> cases hphase'
    · cases hphase'
  | readFail hphase => cases hphase'
  | respond outcome hphase =>
    cases outcome with
    | none => cases hphase'
    | some answer =>
      dsimp only [Tcp.gotResponse] at hphase'
      split_ifs at hphase'
      obtain ⟨rfl, rfl, rfl⟩ := Tcp.Phase.resolving.inj hphase'
      refine ⟨List.mem_append_right _ ?_, fun ip hip => hip⟩
      simp [State.exchange, hc, hphase, Tcp.Phase.query]
  | row hphase =>
    obtain ⟨rfl, rfl, rfl⟩ := Tcp.Phase.resolving.inj hphase'
    exact (hold _ _ _ hphase).tail.mono
  | writeFirst n hphase => cases hphase'
  | wrote n hphase => cases hphase'
  | write n hphase => cases hphase'
  | writeFail hphase => cases hphase'

theorem Sourced.step {heard : List Exchange} (hs : Sound s) (h : Sourced heard s)
    (hstep : Forwarder.step stripAaaa s a = some t) :
    Sourced (heard ++ (s.exchange a).toList) t := by
  have hmono := h.mono (s.exchange a).toList
  cases a with
  | udp act =>
    obtain ⟨u, u', hu, hustep, rfl⟩ := Forwarder.step_udp hstep
    refine ⟨?_, by simp, hmono.tcp⟩
    rintro _ ⟨⟩ acceptance ips hreader
    exact h.step_udp hu hustep hreader
  | doh act =>
    obtain ⟨d, d', hd, hdstep, rfl⟩ := Forwarder.step_doh hstep
    refine ⟨by simp, ?_, hmono.tcp⟩
    rintro _ ⟨⟩
    exact Sourced.step_doh hs h hd hdstep
  | accept =>
    obtain rfl := Option.some.inj hstep
    refine ⟨hmono.udp, hmono.doh, List.forall_mem_append.mpr ⟨hmono.tcp, ?_⟩⟩
    intro c hc query response ips hphase
    obtain rfl := List.mem_singleton.mp hc
    cases hphase
  | tcp k act =>
    obtain ⟨c, c', table, hc, hcstep, rfl⟩ := Forwarder.step_tcp hstep
    refine ⟨?_, ?_, forall_mem_set (fun _ _ _ hphase => h.step_tcp hc hcstep hphase) hmono.tcp⟩
    · intro u hu
      obtain ⟨v, hv, rfl⟩ := Datagrams.udp_of_setTable hu
      exact hmono.udp v hv
    · intro d hd
      obtain ⟨e, he, rfl⟩ := Datagrams.doh_of_setTable hd
      exact (hmono.doh e he).congr rfl rfl rfl rfl

/-- The name and the address of a row are those of an answer. -/
theorem Sourced.heard_of_resolution {heard : List Exchange} (h : Sourced heard s)
    {r : Resolution} (hr : s.resolution a = some r) : r.Heard heard := by
  unfold State.resolution at hr
  split at hr
  · cases hu : s.datagrams with
    | doh d => simp [hu] at hr
    | udp u =>
      simp only [hu] at hr
      split at hr
      · next acceptance ip ips hreader =>
        obtain rfl := Option.some.inj hr
        obtain ⟨hmem, hips⟩ := h.udp u hu _ _ hreader
        exact ⟨_, hmem, rfl, hips _ List.mem_cons_self, rfl⟩
      · cases hr
  · cases hd : s.datagrams with
    | udp u => simp [hd] at hr
    | doh d =>
      simp only [hd] at hr
      split at hr
      · next reply ip ips hdelivery =>
        obtain rfl := Option.some.inj hr
        obtain ⟨hip, x, hx, hlen, hkey, hips⟩ :=
          (h.doh d hd).deliveries _ _ hdelivery ip List.mem_cons_self
        refine ⟨x, hx, ?_, by rw [hips]; exact hip, hips⟩
        have hpacket : 2 ≤ reply.request.query.packet.length :=
          Nat.le_trans (by decide) reply.request.query.hlen
        exact (sameFrom_of_cacheKey_eq hlen hpacket hkey).parseQueryName_eq
      · cases hr
  · split at hr
    · next query response ip ips inbox written queries hc =>
      obtain rfl := Option.some.inj hr
      obtain ⟨hmem, hips⟩ := h.tcp _ (List.mem_of_getElem? hc) _ _ _ rfl
      exact ⟨_, hmem, rfl, hips _ List.mem_cons_self, rfl⟩
    · cases hr
  · cases hr

end Step

section Run
variable {upstream : DnsUpstream} {stripAaaa : Bool} {acts : List Action} {s t : State} {a : Action}

theorem Resolution.Heard.mono {heard : List Exchange} {r : Resolution} (h : r.Heard heard)
    (more : List Exchange) : r.Heard (heard ++ more) := by
  obtain ⟨x, hx, hrest⟩ := h
  exact ⟨x, List.mem_append_left _ hx, hrest⟩

/-- What a run keeps: the table is what the calls for its rows make of an empty one. -/
structure Logged (upstream : DnsUpstream) (stripAaaa : Bool) (acts : List Action) (s : State) :
    Prop where
  sound : Sound s
  sourced : Sourced (exchanges upstream stripAaaa acts) s
  table : ∃ calls, s.table = DnsTable.after calls ∧
    DnsTable.inserts calls = (resolutions upstream stripAaaa acts).map Resolution.write
  heard : ∀ r ∈ resolutions upstream stripAaaa acts, r.Heard (exchanges upstream stripAaaa acts)

theorem logged_initial (upstream : DnsUpstream) (stripAaaa : Bool) :
    Logged upstream stripAaaa [] (initial upstream) where
  sound := sound_initial upstream
  sourced := sourced_initial upstream
  table := ⟨[], by cases upstream <;> rfl, rfl⟩
  heard r hr := by cases hr

theorem Logged.step (h : Logged upstream stripAaaa acts s)
    (hrun : (system upstream stripAaaa).run acts = some s)
    (hstep : step stripAaaa s a = some t) : Logged upstream stripAaaa (acts ++ [a]) t := by
  have hexchanges : exchanges upstream stripAaaa (acts ++ [a]) =
      exchanges upstream stripAaaa acts ++ (s.exchange a).toList := System.log_snoc _ hrun hstep
  have hresolutions : resolutions upstream stripAaaa (acts ++ [a]) =
      resolutions upstream stripAaaa acts ++ (s.resolution a).toList :=
    System.log_snoc _ hrun hstep
  refine ⟨h.sound.step hstep, by rw [hexchanges]; exact h.sourced.step h.sound hstep, ?_, ?_⟩
  · obtain ⟨calls, htable, hinserts⟩ := h.table
    rw [hresolutions]
    rcases table_of_resolution h.sound hstep with
      ⟨hnone, hsame⟩ | ⟨r, order, evictNow, hsome, hrow⟩
    · refine ⟨calls, by rw [hsame, htable], ?_⟩
      rw [hnone, Option.toList_none, List.append_nil, hinserts]
    · refine ⟨calls ++ [.insert r.ip r.name (tableTtl r.response) r.now evictNow order], ?_, ?_⟩
      · rw [DnsTable.after_snoc, hrow, htable]
        rfl
      · rw [DnsTable.inserts_snoc_insert, hinserts, hsome, Option.toList_some, List.map_append]
        rfl
  · rw [hresolutions, hexchanges]
    intro r hr
    rcases List.mem_append.mp hr with hold | hnew
    · exact (h.heard r hold).mono _
    · exact (h.sourced.heard_of_resolution (Option.mem_toList.mp hnew)).mono _

theorem logged_of_run (hrun : (system upstream stripAaaa).run acts = some s) :
    Logged upstream stripAaaa acts s :=
  System.run_induction (P := Logged upstream stripAaaa) (logged_initial upstream stripAaaa)
    (fun _ _ _ _ hrun hlogged hstep => hlogged.step hrun hstep) acts s hrun

def lastRow (rows : List Resolution) (ip : IpAddr) : Option Resolution :=
  (rows.filter (fun r => r.ip = ip)).getLast?

theorem last_map_write (rows : List Resolution) (ip : IpAddr) :
    Write.last (rows.map Resolution.write) ip = (lastRow rows ip).map Resolution.write := by
  rw [Write.last, lastRow, List.filter_map, List.getLast?_map]
  rfl

/-- Wherever a run of the forwarder comes to, a name that is found for an address is that of the
last row for it, which is not expired and was heard from the upstream; and it is found as long as
the addresses of the run fit into the table. -/
theorem lookup_of_run (hrun : (system upstream stripAaaa).run acts = some s) :
    (∀ ip now name, s.table.lookup ip now = some name →
      ∃ r, lastRow (resolutions upstream stripAaaa acts) ip = some r ∧ r.ip = ip ∧ r.name = name ∧
        now < r.now + fromSecs (tableTtl r.response).toNat ∧
          r.Heard (exchanges upstream stripAaaa acts)) ∧
    (((resolutions upstream stripAaaa acts).map Resolution.ip).toFinset.card < maxCacheEntries →
      ∀ ip now, s.table.lookup ip now =
        ((lastRow (resolutions upstream stripAaaa acts) ip).filter
          (fun r => decide (now < r.now + fromSecs (tableTtl r.response).toNat))).map
            Resolution.name) := by
  have hlogged := logged_of_run hrun
  obtain ⟨calls, htable, hinserts⟩ := hlogged.table
  have hrefines := DnsTable.refines_after calls
  have hlookup : ∀ ip now, s.table.lookup ip now = ((AList.lookup ip (DnsTable.after calls)).filter
      (fun e => decide (now < e.2))).map Prod.fst := by
    intro ip now
    rw [htable, DnsTable.lookup_eq]
  constructor
  · intro ip now name h
    rw [hlookup, Option.map_eq_some_iff] at h
    obtain ⟨e, he, rfl⟩ := h
    rw [Option.filter_eq_some_iff, decide_eq_true_eq] at he
    obtain ⟨w, hw, rfl⟩ := hrefines ip e he.1
    rw [hinserts, last_map_write] at hw
    obtain ⟨r, hr, rfl⟩ := Option.map_eq_some_iff.mp hw
    have hmem := List.mem_filter.mp (List.mem_of_getLast? hr)
    exact ⟨r, hr, of_decide_eq_true hmem.2, rfl, he.2, hlogged.heard r hmem.1⟩
  · intro hfew ip now
    have hcomplete : Write.Complete (DnsTable.inserts calls) (DnsTable.after calls) := by
      apply DnsTable.complete_after
      rw [hinserts, Write.keys, List.map_map]
      exact hfew
    rw [hlookup, ← hcomplete.read_eq hrefines, Write.read, hinserts, last_map_write]
    cases lastRow (resolutions upstream stripAaaa acts) ip with
    | none => rfl
    | some r =>
      simp only [Option.map_some, Option.filter_some, apply_ite (Option.map _)]
      rfl

end Run
end TransProxy.Dns.Forwarder
