import TransProxy.Dns.DohCache
import TransProxy.Dns.Tcp
import TransProxy.Dns.UdpSafety

/-!
# The whole forwarder

`run` serves UDP clients, by UDP or by DoH, and TCP clients next to them. All listeners
share the table, which starts out empty.
-/
namespace TransProxy.Dns.Forwarder
open Library Net

inductive DnsUpstream where
  | udp
  | https

/-- The UDP listener, with the upstream it was started for. -/
inductive Datagrams where
  | udp (s : Udp.State)
  | doh (s : Doh.State)

structure State where
  datagrams : Datagrams
  tcp : List Tcp.Connection

inductive Action where
  | udp (a : Udp.Action)
  | doh (a : Doh.Action)
  | accept
  | tcp (k : ℕ) (a : Tcp.Action)

def Datagrams.table : Datagrams → DnsTable
  | .udp s => s.table
  | .doh s => s.table

def Datagrams.setTable (table : DnsTable) : Datagrams → Datagrams
  | .udp s => .udp { s with table }
  | .doh s => .doh { s with table }

@[simp] theorem Datagrams.table_setTable (table : DnsTable) (d : Datagrams) :
    (d.setTable table).table = table := by
  cases d <;> rfl

theorem Datagrams.udp_of_setTable {table : DnsTable} {d : Datagrams} {u : Udp.State}
    (h : d.setTable table = .udp u) : ∃ v, d = .udp v ∧ u = { v with table } := by
  cases d with
  | udp v => exact ⟨v, rfl, (Datagrams.udp.inj h).symm⟩
  | doh e => cases h

theorem Datagrams.doh_of_setTable {table : DnsTable} {d : Datagrams} {e : Doh.State}
    (h : d.setTable table = .doh e) : ∃ f, d = .doh f ∧ e = { f with table } := by
  cases d with
  | udp v => cases h
  | doh f => exact ⟨f, rfl, (Datagrams.doh.inj h).symm⟩

def State.table (s : State) : DnsTable := s.datagrams.table

def step (stripAaaa : Bool) (s : State) : Action → Option State
  | .udp a =>
    match s.datagrams with
    | .udp u => (Udp.step stripAaaa u a).map (fun u => { s with datagrams := .udp u })
    | .doh _ => none
  | .doh a =>
    match s.datagrams with
    | .udp _ => none
    | .doh d => (Doh.step stripAaaa d a).map (fun d => { s with datagrams := .doh d })
  | .accept => some { s with tcp := s.tcp ++ [Tcp.start] }
  | .tcp k a =>
    match s.tcp[k]? with
    | none => none
    | some c =>
      (Tcp.step stripAaaa s.table c a).map
        (fun r => { datagrams := s.datagrams.setTable r.2, tcp := s.tcp.set k r.1 })

def initial : DnsUpstream → State
  | .udp => { datagrams := .udp (Udp.initial ∅), tcp := [] }
  | .https => { datagrams := .doh (Doh.initial ∅), tcp := [] }

def system (upstream : DnsUpstream) (stripAaaa : Bool) : System State Action :=
  { init := initial upstream, step := step stripAaaa }

/-- A query that some listener took on, or a response that it accepted. -/
def State.Processed (s : State) (packet : Bytes) : Prop :=
  (match s.datagrams with
    | .udp u => (∃ q ∈ u.queries, q.packet = packet) ∨ ∃ a ∈ u.accepted, a.datagram = packet
    | .doh d => ∃ q ∈ d.queries, q.packet = packet) ∨
  ∃ c ∈ s.tcp, packet ∈ c.queries

/-- Every name in the table is one that the parser read from a packet. -/
def State.RealNames (s : State) : Prop :=
  ∀ ip e, AList.lookup ip s.table = some e →
    e.1 ≠ "" ∧ ∃ packet, s.Processed packet ∧ parseQueryName packet = some e.1

/-- The query for which a row is inserted on behalf of a TCP client or with a DoH upstream. -/
def State.insertsFor (s : State) : Action → Option Bytes
  | .doh (.row task _ _ _) =>
    match s.datagrams with
    | .udp _ => none
    | .doh d => (d.delivery task).map (fun d => d.reply.request.query.packet)
  | .tcp k (.row _ _ _) => s.tcp[k]?.bind (fun c => c.phase.query)
  | _ => none

/-- What the listeners know about the packets that they work on. -/
structure Sound (s : State) : Prop where
  udp : ∀ u, s.datagrams = .udp u → u.ReadsAccepted
  doh : ∀ d, s.datagrams = .doh d → Doh.Inv d
  tcp : ∀ c ∈ s.tcp, c.Coherent

theorem sound_initial (upstream : DnsUpstream) : Sound (initial upstream) := by
  cases upstream with
  | udp =>
    constructor
    · rintro u ⟨⟩ a ips h
      cases h
    · rintro d ⟨⟩
    · simp [initial]
  | https =>
    constructor
    · rintro u ⟨⟩
    · rintro d ⟨⟩
      exact Doh.inv_initial ∅
    · simp [initial]

section Step
variable {stripAaaa : Bool} {s t : State} {a : Action}

theorem step_udp {act : Udp.Action} (h : step stripAaaa s (.udp act) = some t) :
    ∃ u u', s.datagrams = .udp u ∧ Udp.step stripAaaa u act = some u' ∧
      t = { s with datagrams := .udp u' } := by
  cases hd : s.datagrams <;> simp only [step, hd, reduceCtorEq] at h
  obtain ⟨u', hu', rfl⟩ := Option.map_eq_some_iff.mp h
  exact ⟨_, u', rfl, hu', rfl⟩

theorem step_doh {act : Doh.Action} (h : step stripAaaa s (.doh act) = some t) :
    ∃ d d', s.datagrams = .doh d ∧ Doh.step stripAaaa d act = some d' ∧
      t = { s with datagrams := .doh d' } := by
  cases hd : s.datagrams <;> simp only [step, hd, reduceCtorEq] at h
  obtain ⟨d', hd', rfl⟩ := Option.map_eq_some_iff.mp h
  exact ⟨_, d', rfl, hd', rfl⟩

theorem step_tcp {k : ℕ} {act : Tcp.Action} (h : step stripAaaa s (.tcp k act) = some t) :
    ∃ c c' table, s.tcp[k]? = some c ∧ Tcp.step stripAaaa s.table c act = some (c', table) ∧
      t = { datagrams := s.datagrams.setTable table, tcp := s.tcp.set k c' } := by
  cases hc : s.tcp[k]? <;> simp only [step, hc, reduceCtorEq] at h
  obtain ⟨⟨c', table⟩, hstep, rfl⟩ := Option.map_eq_some_iff.mp h
  exact ⟨_, c', table, rfl, hstep, rfl⟩

theorem Sound.step (hs : Sound s) (h : step stripAaaa s a = some t) : Sound t := by
  cases a with
  | udp act =>
    obtain ⟨u, u', hu, hstep, rfl⟩ := step_udp h
    refine ⟨?_, by simp, hs.tcp⟩
    rintro _ ⟨⟩
    exact (hs.udp u hu).step hstep
  | doh act =>
    obtain ⟨d, d', hd, hstep, rfl⟩ := step_doh h
    refine ⟨by simp, ?_, hs.tcp⟩
    rintro _ ⟨⟩
    exact (hs.doh d hd).step hstep
  | accept =>
    obtain rfl := Option.some.inj h
    exact ⟨hs.udp, hs.doh,
      List.forall_mem_append.mpr ⟨hs.tcp, List.forall_mem_singleton.mpr Tcp.coherent_start⟩⟩
  | tcp k act =>
    obtain ⟨c, c', table, hc, hstep, rfl⟩ := step_tcp h
    have hnext := (hs.tcp c (List.mem_of_getElem? hc)).step hstep
    refine ⟨?_, ?_, forall_mem_set hnext.1 hs.tcp⟩
    · intro u hu
      obtain ⟨v, hv, rfl⟩ := Datagrams.udp_of_setTable hu
      exact hs.udp v hv
    · intro d hd
      obtain ⟨e, he, rfl⟩ := Datagrams.doh_of_setTable hd
      exact (hs.doh e he).congr rfl rfl rfl rfl rfl

/-- A step leaves the table alone, inserts a row under the name in an accepted response, or
one under what is left of the name in a query when it does not parse. -/
theorem table_of_step (hs : Sound s) (h : step stripAaaa s a = some t) :
    (t.table = s.table ∧ s.insertsFor a = none) ∨
      ∃ packet ip ttl order now evictNow, s.Processed packet ∧
        t.table = s.table.insert order ip ((parseQueryName packet).getD "") ttl now evictNow ∧
          (s.insertsFor a = some packet ∨
            s.insertsFor a = none ∧ (parseQueryName packet).isSome) := by
  cases a with
  | udp act =>
    obtain ⟨u, u', hu, hstep, rfl⟩ := step_udp h
    rcases Udp.step_table_cases hstep with
      hsame | ⟨acceptance, ip, ips, order, now, evictNow, hreader, hrow⟩
    · exact .inl ⟨by simp only [State.table, hu]; exact hsame, rfl⟩
    · obtain ⟨hmem, hname⟩ := hs.udp u hu _ _ hreader
      refine .inr ⟨acceptance.datagram, ip, tableTtl acceptance.datagram, order, now, evictNow, ?_, ?_, .inr ⟨rfl, ?_⟩⟩
      · left
        simp only [hu]
        exact .inr ⟨acceptance, hmem, rfl⟩
      · simp only [State.table, hu, hname, Option.getD_some]
        exact hrow
      · rw [hname]
        rfl
  | doh act =>
    obtain ⟨d, d', hd, hstep, rfl⟩ := step_doh h
    by_cases hrow : ∃ task now evictNow order, act = .row task now evictNow order
    · obtain ⟨task, now, evictNow, order, rfl⟩ := hrow
      obtain ⟨reply, ip, ips, hdelivery, _⟩ := Doh.step_row hstep
      refine .inr ⟨reply.request.query.packet, ip, tableTtl reply.data, order, now, evictNow, ?_, ?_, .inl ?_⟩
      · left
        simp only [hd]
        exact ⟨_, List.mem_of_getElem? ((hs.doh d hd).query_of_delivery hdelivery), rfl⟩
      · simp only [State.table, hd]
        exact Doh.table_of_row hdelivery hstep
      · simp [State.insertsFor, hd, hdelivery]
    · have hno : ∀ task now evictNow order, act ≠ .row task now evictNow order := by
        intro task now evictNow order heq
        exact hrow ⟨task, now, evictNow, order, heq⟩
      refine .inl ⟨by simp only [State.table, hd]; exact Doh.table_of_step hstep hno, ?_⟩
      cases act <;> first | rfl | exact absurd rfl (hno _ _ _ _)
  | accept =>
    obtain rfl := Option.some.inj h
    exact .inl ⟨rfl, rfl⟩
  | tcp k act =>
    obtain ⟨c, c', table, hc, hstep, rfl⟩ := step_tcp h
    by_cases hrow : ∃ now evictNow order, act = .row now evictNow order
    · obtain ⟨now, evictNow, order, rfl⟩ := hrow
      obtain ⟨query, response, ip, ips, hphase, rfl⟩ := Tcp.step_row hstep
      have hmem := hs.tcp c (List.mem_of_getElem? hc) query (by rw [hphase]; rfl)
      refine .inr ⟨query, ip, tableTtl response, order, now, evictNow,
        .inr ⟨c, List.mem_of_getElem? hc, hmem⟩, ?_, .inl ?_⟩
      · simp [State.table, Tcp.queryName]
      · simp [State.insertsFor, hc, hphase, Tcp.Phase.query]
    · have hno : ∀ now evictNow order, act ≠ .row now evictNow order := by
        intro now evictNow order heq
        exact hrow ⟨now, evictNow, order, heq⟩
      obtain rfl := Tcp.table_of_step hstep hno
      refine .inl ⟨by simp [State.table], ?_⟩
      cases act <;> first | rfl | exact absurd rfl (hno _ _ _)

theorem processed_of_step (hs : Sound s) (h : step stripAaaa s a = some t) {packet : Bytes}
    (hp : s.Processed packet) : t.Processed packet := by
  cases a with
  | udp act =>
    obtain ⟨u, u', hu, hstep, rfl⟩ := step_udp h
    rcases hp with hp | hp
    · left
      simp only [hu] at hp ⊢
      rcases hp with ⟨q, hq, rfl⟩ | ⟨acceptance, ha, rfl⟩
      · refine .inl ⟨q, ?_, rfl⟩
        rcases Udp.step_queries hstep with hsame | ⟨_, _, _, _, _, _, _, hadd⟩
        · rw [hsame]
          exact hq
        · rw [hadd]
          exact List.mem_append_left _ hq
      · exact .inr ⟨acceptance, (Udp.step_history hstep).subset ha, rfl⟩
    · exact .inr hp
  | doh act =>
    obtain ⟨d, d', hd, hstep, rfl⟩ := step_doh h
    rcases hp with hp | hp
    · left
      simp only [hd] at hp ⊢
      obtain ⟨q, hq, rfl⟩ := hp
      obtain ⟨n, hn⟩ := List.mem_iff_getElem?.mp hq
      have hgrows := Doh.grows_of_step (hs.doh d hd) hstep
      exact ⟨q, List.mem_of_getElem? (hgrows.queries n q hn), rfl⟩
    · exact .inr hp
  | accept =>
    obtain rfl := Option.some.inj h
    rcases hp with hp | ⟨c, hc, hmem⟩
    · exact .inl hp
    · exact .inr ⟨c, List.mem_append_left _ hc, hmem⟩
  | tcp k act =>
    obtain ⟨c, c', table, hc, hstep, rfl⟩ := step_tcp h
    rcases hp with hp | ⟨x, hx, hmem⟩
    · left
      cases hd : s.datagrams with
      | udp u =>
        simp only [hd, Datagrams.setTable] at hp ⊢
        exact hp
      | doh d =>
        simp only [hd, Datagrams.setTable] at hp ⊢
        exact hp
    · right
      obtain ⟨j, hj⟩ := List.mem_iff_getElem?.mp hx
      obtain ⟨y, hy, ⟨_, rfl, rfl⟩ | ⟨_, rfl⟩⟩ := exists_getElem?_set (a := c') hc hj
      · have hnext := (hs.tcp x hx).step hstep
        exact ⟨y, List.mem_of_getElem? hy, hnext.2 packet hmem⟩
      · exact ⟨y, List.mem_of_getElem? hy, hmem⟩

/-- A row under a name keeps the names real. -/
theorem realNames_of_step (hs : Sound s) (h : step stripAaaa s a = some t) (hreal : s.RealNames)
    (hname : ∀ packet, s.insertsFor a = some packet → (parseQueryName packet).isSome) :
    t.RealNames := by
  have hold : ∀ e : String × Instant, (e.1 ≠ "" ∧ ∃ packet, s.Processed packet ∧
      parseQueryName packet = some e.1) → e.1 ≠ "" ∧ ∃ packet, t.Processed packet ∧
        parseQueryName packet = some e.1 := by
    rintro e ⟨hne, packet, hp, hparse⟩
    exact ⟨hne, packet, processed_of_step hs h hp, hparse⟩
  intro ip e he
  rcases table_of_step hs h with ⟨hsame, _⟩ | ⟨packet, ip', ttl, order, now, evictNow, hp, hrow, hcases⟩
  · rw [hsame] at he
    exact hold e (hreal ip e he)
  · obtain ⟨name, hparse⟩ : ∃ name, parseQueryName packet = some name := by
      rcases hcases with hfor | ⟨_, hsome⟩
      · exact Option.isSome_iff_exists.mp (hname packet hfor)
      · exact Option.isSome_iff_exists.mp hsome
    rw [hrow, hparse, Option.getD_some, DnsTable.insert_eq, HashMap.lookup_insert_eq] at he
    split_ifs at he with hip
    · obtain rfl := Option.some.inj he
      exact ⟨ne_empty_of_parseQueryName hparse, packet, processed_of_step hs h hp, hparse⟩
    · exact hold e (hreal ip e (DnsTable.sub_evict order s.table evictNow ip e he))

/-- A row for a query without a name puts the empty name into the table. -/
theorem isSome_of_realNames (hs : Sound s) (h : step stripAaaa s a = some t) (hreal : t.RealNames)
    {packet : Bytes} (hfor : s.insertsFor a = some packet) : (parseQueryName packet).isSome := by
  rcases table_of_step hs h with ⟨_, hnone⟩ | ⟨packet', ip, ttl, order, now, evictNow, _, hrow, hcases⟩
  · rw [hnone] at hfor
    cases hfor
  · rcases hcases with hfor' | ⟨hnone, _⟩
    · obtain rfl := Option.some.inj (hfor'.symm.trans hfor)
      cases hparse : parseQueryName packet' with
      | some name => rfl
      | none =>
        rw [hparse, Option.getD_none, DnsTable.insert_eq] at hrow
        have hlookup : AList.lookup ip t.table = some ("", now + fromSecs ttl.toNat) := by
          rw [hrow, HashMap.lookup_insert_eq, if_pos rfl]
        exact absurd rfl (hreal ip _ hlookup).1
    · rw [hnone] at hfor
      cases hfor

end Step

section Run
variable {upstream : DnsUpstream} {stripAaaa : Bool} {acts : List Action} {s : State}

theorem sound_of_visits (h : (system upstream stripAaaa).Visits acts s) : Sound s :=
  h.invariant (sound_initial upstream) (fun _ _ _ ht hs => hs.step ht.step_eq)

/-- The table holds real names, wherever a run comes through, exactly if every row inserted for
a TCP client or with a DoH upstream is inserted for a query whose name parses. -/
theorem realNames_iff (upstream : DnsUpstream) (stripAaaa : Bool) (acts : List Action) :
    (∀ s, (system upstream stripAaaa).Visits acts s → s.RealNames) ↔
      ∀ s a t packet, (system upstream stripAaaa).Takes acts s a t →
        s.insertsFor a = some packet → (parseQueryName packet).isSome := by
  constructor
  · intro h s a t packet htakes hfor
    exact isSome_of_realNames (sound_of_visits htakes.visits) htakes.step_eq
      (h t htakes.visits_next) hfor
  · intro h s hs
    have hboth : Sound s ∧ s.RealNames := by
      apply hs.invariant (I := fun s => Sound s ∧ s.RealNames)
      · refine ⟨sound_initial upstream, ?_⟩
        intro ip e he
        cases upstream <;> cases he
      · rintro u a t htakes ⟨hu, hreal⟩
        exact ⟨hu.step htakes.step_eq, realNames_of_step hu htakes.step_eq hreal
          (fun packet => h u a t packet htakes)⟩
    exact hboth.2

end Run

def sampleIp : IpAddr := .v4 (.new 192 0 2 1)

def resolveNamed : List Action :=
  (Doh.sampleLead (Doh.sampleQuery 0x12 0x34) (Doh.sampleAnswer 0x12 0x34)).map Action.doh

def resolveRoot : List Action :=
  let query : Bytes := [0xAB, 0xCD, 1, 0, 0, 1, 0, 0, 0, 0, 0, 0, 0, 0, 1, 0, 1]
  let answer : Bytes := [0xAB, 0xCD, 0x81, 0x80, 0, 1, 0, 1, 0, 0, 0, 0, 0, 0, 1, 0, 1] ++
    [0xC0, 12, 0, 1, 0, 1, 0, 0, 0, 60, 0, 4, 192, 0, 2, 1]
  [.doh (.datagram Doh.sampleClient query), .doh (.lookup 1 1), .doh .join, .doh .register,
    .doh (.respond 1 (some answer)), .doh (.put 1 1 (fun _ => 1) .stored), .doh (.complete 1),
    .doh (.broadcast 1), .doh (.row (.leader 1) 1 1 .stored)]

/-- The response for a query without a name overwrites the name of the address. -/
theorem not_realNames_root : ∃ s t,
    (system .https false).run resolveNamed = some s ∧ s.table.lookup sampleIp 1 = some "a" ∧
      (system .https false).run (resolveNamed ++ resolveRoot) = some t ∧
        t.table.lookup sampleIp 2 = some "" ∧ ¬ t.RealNames := by
  have hnamed : ((system .https false).run resolveNamed).map
      (fun s => s.table.lookup sampleIp 1) = some (some "a") := by
    decide +kernel
  have hroot : ((system .https false).run (resolveNamed ++ resolveRoot)).map
      (fun s => s.table.lookup sampleIp 2) = some (some "") := by
    decide +kernel
  obtain ⟨s, hs, hlookup⟩ := Option.map_eq_some_iff.mp hnamed
  obtain ⟨t, ht, hlookup'⟩ := Option.map_eq_some_iff.mp hroot
  refine ⟨s, t, hs, hlookup, ht, hlookup', ?_⟩
  intro hreal
  rw [DnsTable.lookup_eq, Option.map_eq_some_iff] at hlookup'
  obtain ⟨e, he, hempty⟩ := hlookup'
  exact (hreal sampleIp e (Option.filter_eq_some_iff.mp he).1).1 hempty

end TransProxy.Dns.Forwarder
