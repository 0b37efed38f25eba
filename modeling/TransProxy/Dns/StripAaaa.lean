import TransProxy.Dns.Forwarder
import TransProxy.Dns.Stripping

/-!
# Stripping in the whole forwarder

A query with a question for IPv6 addresses shall not go upstream nor bring anything into
the table, and for any other the listeners shall do what they do without stripping. They
do so for the queries whose first type tells whether there is such a question.
-/
namespace TransProxy.Dns.Forwarder
open Library Net

/-- Some question that the packet counts is for IPv6 addresses. -/
def AsksAaaa (packet : Bytes) : Prop := dnsTypeAaaa ∈ questionTypes packet

instance (packet : Bytes) : Decidable (AsksAaaa packet) := inferInstanceAs (Decidable (_ ∈ _))

theorem le_length_of_asksAaaa {packet : Bytes} (h : AsksAaaa packet) : 12 ≤ packet.length := by
  by_contra hlen
  rw [AsksAaaa, questionTypes_of_short (by omega)] at h
  cases h

def State.Receives (s : State) (packet : Bytes) : Action → Prop
  | .udp (.clientDatagram _ received _ _ _ _) => received = packet
  | .doh (.datagram _ received) => received = packet
  | .tcp k .readQuery => ∃ c len, s.tcp[k]? = some c ∧ c.phase = .readingQuery len ∧
      c.inbox.take len = packet
  | _ => False

/-- The packet is on its way upstream: to the UDP server, under whatever identifier, to the
DoH server, or on a connection of its own for a TCP client. -/
def State.Forwards (s : State) (packet : Bytes) : Prop :=
  (match s.datagrams with
    | .udp u => ∃ id, u.client = .forwarding (Udp.setTxId packet id)
    | .doh d => ∃ l ∈ d.leaders, l.request.query.packet = packet) ∨
  ∃ c ∈ s.tcp, c.phase = .forwarding packet

/-- The query whose response brings in the row that the action inserts. -/
def State.derives (s : State) : Action → Option Bytes
  | .udp (.insertRow _ _ _) =>
    match s.datagrams with
    | .udp u =>
      match u.reader with
      | .resolving acceptance _ => (acceptance.query.bind (fun n => u.queries[n]?)).map (·.packet)
      | .receiving => none
    | .doh _ => none
  | a => s.insertsFor a

/-- With stripping, the packet does not go upstream, and every row comes from another. -/
def NeverUsed (packet : Bytes) : Prop :=
  ∀ upstream acts,
    (∀ s, (system upstream true).Visits acts s → ¬ s.Forwards packet) ∧
      ∀ s a t, (system upstream true).Takes acts s a t → t.table ≠ s.table →
        ∃ query, s.derives a = some query ∧ query ≠ packet

/-- The packet is received alike with and without stripping. -/
def AsIfOff (packet : Bytes) : Prop :=
  ∀ s a, s.Receives packet a → step true s a = step false s a

/-- Every packet that is at work passes. -/
structure State.Passing (s : State) : Prop where
  udp : ∀ u, s.datagrams = .udp u → Udp.Inv u ∧ u.Passing
  doh : ∀ d, s.datagrams = .doh d → Doh.Inv d ∧ d.Passing
  tcp : ∀ c ∈ s.tcp, c.Passing

theorem passing_initial (upstream : DnsUpstream) : (initial upstream).Passing := by
  cases upstream with
  | udp =>
    refine ⟨?_, by rintro d ⟨⟩, by simp [initial]⟩
    rintro u ⟨⟩
    exact ⟨Udp.inv_initial ∅, Udp.passing_initial ∅⟩
  | https =>
    refine ⟨by rintro u ⟨⟩, ?_, by simp [initial]⟩
    rintro d ⟨⟩
    exact ⟨Doh.inv_initial ∅, Doh.passing_initial ∅⟩

theorem State.Passing.step {s t : State} {a : Action} (hs : s.Passing)
    (h : step true s a = some t) : t.Passing := by
  cases a with
  | udp act =>
    obtain ⟨u, u', hu, hstep, rfl⟩ := step_udp h
    refine ⟨?_, by simp, hs.tcp⟩
    rintro _ ⟨⟩
    exact ⟨(hs.udp u hu).1.step hstep, (hs.udp u hu).2.step hstep⟩
  | doh act =>
    obtain ⟨d, d', hd, hstep, rfl⟩ := step_doh h
    refine ⟨by simp, ?_, hs.tcp⟩
    rintro _ ⟨⟩
    exact ⟨(hs.doh d hd).1.step hstep, (hs.doh d hd).2.step hstep⟩
  | accept =>
    obtain rfl := Option.some.inj h
    exact ⟨hs.udp, hs.doh,
      List.forall_mem_append.mpr ⟨hs.tcp, List.forall_mem_singleton.mpr Tcp.passing_start⟩⟩
  | tcp k act =>
    obtain ⟨c, c', table, hc, hstep, rfl⟩ := step_tcp h
    have hnext := (hs.tcp c (List.mem_of_getElem? hc)).step hstep
    -- the datagrams only get the table
    refine ⟨?_, ?_, forall_mem_set hnext hs.tcp⟩
    · intro u hu
      obtain ⟨v, hv, rfl⟩ := Datagrams.udp_of_setTable hu
      obtain ⟨hinv, hpassing⟩ := hs.udp v hv
      exact ⟨hinv.congr _ _ _ _, hpassing.congr rfl (.inl rfl)⟩
    · intro d hd
      obtain ⟨e, he, rfl⟩ := Datagrams.doh_of_setTable hd
      obtain ⟨hinv, hpassing⟩ := hs.doh e he
      exact ⟨hinv.congr rfl rfl rfl rfl rfl, hpassing.congr rfl rfl rfl⟩

theorem passing_of_visits {upstream : DnsUpstream} {acts : List Action} {s : State}
    (h : (system upstream true).Visits acts s) : s.Passing :=
  h.invariant (passing_initial upstream) (fun _ _ _ ht hs => hs.step ht.step_eq)

section Stripped
variable {s t : State} {a : Action} {packet : Bytes}

/-- What goes upstream passes. -/
theorem State.Passing.forwards (hs : s.Passing) (h : s.Forwards packet) (hlen : 2 ≤ packet.length) :
    Passes packet := by
  rcases h with h | ⟨c, hc, hphase⟩
  · cases hd : s.datagrams with
    | udp u =>
      simp only [hd] at h
      obtain ⟨id, hclient⟩ := h
      rw [Passes, ← Udp.parseQueryType_setTxId packet id hlen]
      exact (hs.udp u hd).2.forwarding _ hclient
    | doh d =>
      simp only [hd] at h
      obtain ⟨l, hl, rfl⟩ := h
      exact (hs.doh d hd).2.leader l hl
  · exact hs.tcp c hc packet (by rw [hphase]; rfl)

/-- A row comes from a query that passes. -/
theorem State.Passing.derives (hs : s.Passing) (h : Forwarder.step true s a = some t)
    (hne : t.table ≠ s.table) : ∃ query, s.derives a = some query ∧ Passes query := by
  cases a with
  | udp act =>
    obtain ⟨u, u', hu, hstep, rfl⟩ := step_udp h
    obtain ⟨hinv, hpassing⟩ := hs.udp u hu
    by_cases hrow : ∃ now evictNow order, act = .insertRow now evictNow order
    · obtain ⟨now, evictNow, order, rfl⟩ := hrow
      obtain ⟨acceptance, ip, ips, _, hreader, _⟩ := Udp.step_insertRow hstep
      obtain ⟨i, q, hi, hq, _⟩ := hinv.answers acceptance (hinv.inFlight_mem hreader)
      refine ⟨q.packet, ?_, hpassing.pending q (List.mem_of_getElem? hq)⟩
      simp [State.derives, hu, hreader, hi, hq]
    · have hsame := Udp.table_of_step hstep (by
        intro now evictNow order heq
        exact hrow ⟨now, evictNow, order, heq⟩)
      exact absurd (by simp only [State.table, hu]; exact hsame) hne
  | doh act =>
    obtain ⟨d, d', hd, hstep, rfl⟩ := step_doh h
    obtain ⟨hinv, hpassing⟩ := hs.doh d hd
    by_cases hrow : ∃ task now evictNow order, act = .row task now evictNow order
    · obtain ⟨task, now, evictNow, order, rfl⟩ := hrow
      obtain ⟨reply, ip, ips, hdelivery, _⟩ := Doh.step_row hstep
      refine ⟨reply.request.query.packet, ?_, hpassing.delivery hinv hdelivery (by simp)⟩
      simp [State.derives, State.insertsFor, hd, hdelivery]
    · have hsame := Doh.table_of_step hstep (by
        intro task now evictNow order heq
        exact hrow ⟨task, now, evictNow, order, heq⟩)
      exact absurd (by simp only [State.table, hd]; exact hsame) hne
  | accept =>
    obtain rfl := Option.some.inj h
    exact absurd rfl hne
  | tcp k act =>
    obtain ⟨c, c', table, hc, hstep, rfl⟩ := step_tcp h
    by_cases hrow : ∃ now evictNow order, act = .row now evictNow order
    · obtain ⟨now, evictNow, order, rfl⟩ := hrow
      obtain ⟨query, response, ip, ips, hphase, rfl⟩ := Tcp.step_row hstep
      refine ⟨query, ?_, hs.tcp c (List.mem_of_getElem? hc) query (by rw [hphase]; rfl)⟩
      simp [State.derives, State.insertsFor, hc, hphase, Tcp.Phase.query]
    · obtain rfl := Tcp.table_of_step hstep (by
        intro now evictNow order heq
        exact hrow ⟨now, evictNow, order, heq⟩)
      exact absurd (by simp [State.table]) hne

/-- A packet that passes is received alike with and without stripping. -/
theorem asIfOff_of_passes (h : Passes packet) : AsIfOff packet := by
  intro s a hreceives
  cases a with
  | udp act =>
    cases act <;> simp only [State.Receives] at hreceives
    obtain rfl := hreceives
    cases hd : s.datagrams with
    | udp u => simp only [step, hd, Udp.step, Udp.clientReceive_eq_of_passes h]
    | doh d => simp only [step, hd]
  | doh act =>
    cases act <;> simp only [State.Receives] at hreceives
    obtain rfl := hreceives
    cases hd : s.datagrams with
    | udp u => simp only [step, hd]
    | doh d => simp only [step, hd, Doh.step, Doh.receiveDatagram_eq_of_passes h]
  | accept => rfl
  | tcp k act =>
    cases act <;> simp only [State.Receives] at hreceives
    obtain ⟨c, len, hc, hphase, rfl⟩ := hreceives
    simp only [step, hc, Tcp.step, hphase, Tcp.gotQuery_eq_of_passes h]

end Stripped

/-- The first query of a DoH client that is not stripped is sent upstream. -/
theorem exists_forwards_of_passes {packet : Bytes} (h : Passes packet) (hlen : 12 ≤ packet.length) :
    ∃ acts s, (system .https true).run acts = some s ∧ s.Forwards packet := by
  let request : Doh.Request := ⟨0, Doh.sampleClient, packet, hlen⟩
  let d : Doh.State := { Doh.initial ∅ with queries := [request.query] }
  have hreceive : Doh.receiveDatagram true (Doh.initial ∅) Doh.sampleClient packet =
      { d with client := .lookingUp request } := by
    have htype : parseQueryType packet ≠ some dnsTypeAaaa := h
    simp [Doh.receiveDatagram, Nat.not_lt.mpr hlen, htype, Doh.initial, d, request]
  have hdatagram : step true (initial .https) (.doh (.datagram Doh.sampleClient packet)) =
      some { datagrams := .doh { d with client := .lookingUp request }, tcp := [] } :=
    congrArg (fun d => some (State.mk (.doh d) [])) hreceive
  -- nothing is cached and nothing is in flight
  refine ⟨[.doh (.datagram Doh.sampleClient packet), .doh (.lookup 0 0), .doh .join, .doh .register],
    { datagrams := .doh (Doh.register d request), tcp := [] }, ?_, ?_⟩
  · rw [System.run, System.runFrom_cons_of_step _ hdatagram]
    rfl
  · left
    exact ⟨_, List.mem_singleton_self _, rfl⟩

/-- For every packet: it is stripped when it asks for IPv6 addresses, and only then, exactly
if its first type tells whether it does. -/
theorem strips_iff (packet : Bytes) :
    ((AsksAaaa packet → NeverUsed packet) ∧ (¬ AsksAaaa packet → AsIfOff packet)) ↔
      (AsksAaaa packet ↔ firstType packet = some dnsTypeAaaa) := by
  rw [← parseQueryType_eq_firstType]
  constructor
  · rintro ⟨hnever, hoff⟩
    constructor
    · intro hasks
      by_contra hpasses
      obtain ⟨acts, s, hrun, hforwards⟩ := exists_forwards_of_passes hpasses (le_length_of_asksAaaa hasks)
      exact (hnever hasks .https acts).1 s ⟨acts, [], (List.append_nil acts).symm, hrun⟩ hforwards
    · intro htype
      by_contra hasks
      have hlen : 12 ≤ packet.length := by
        by_contra hshort
        rw [parseQueryType, if_pos (by omega)] at htype
        cases htype
      have hsame := hoff hasks (initial .https) (.doh (.datagram Doh.sampleClient packet)) rfl
      have hdatagrams := congrArg State.datagrams (Option.some.inj hsame)
      exact Doh.receiveDatagram_ne (not_not.mpr htype) rfl hlen _ (Datagrams.doh.inj hdatagrams)
  · intro h
    constructor
    · intro hasks upstream acts
      have hlen := le_length_of_asksAaaa hasks
      have hstripped : ¬ Passes packet := not_not.mpr (h.mp hasks)
      constructor
      · intro s hs hforwards
        exact hstripped ((passing_of_visits hs).forwards hforwards (by omega))
      · intro s a t htakes hne
        obtain ⟨query, hderives, hpasses⟩ :=
          (passing_of_visits htakes.visits).derives htakes.step_eq hne
        refine ⟨query, hderives, ?_⟩
        rintro rfl
        exact hstripped hpasses
    · intro hasks
      exact asIfOff_of_passes (mt h.mpr hasks)

/-- One query, for the IPv4 and for the IPv6 addresses of `a`. -/
def sampleBoth : Bytes :=
  [0x12, 0x34, 1, 0, 0, 2, 0, 0, 0, 0, 0, 0, 1, 97, 0, 0, 1, 0, 1, 1, 97, 0, 0, 28, 0, 1]

/-- The query asks for IPv6 addresses and is sent upstream. -/
theorem not_stripped_both : AsksAaaa sampleBoth ∧ ¬ NeverUsed sampleBoth := by
  refine ⟨by decide +kernel, ?_⟩
  intro hnever
  have hrun : ((system .https true).run
      [.doh (.datagram Doh.sampleClient sampleBoth), .doh (.lookup 0 0), .doh .join,
        .doh .register]).map (fun s =>
          match s.datagrams with
          | .udp _ => []
          | .doh d => d.leaders.map (fun l => l.request.query.packet)) = some [sampleBoth] := by
    decide +kernel
  obtain ⟨s, hs, hleaders⟩ := Option.map_eq_some_iff.mp hrun
  apply (hnever .https _).1 s ⟨_, [], (List.append_nil _).symm, hs⟩
  left
  cases hd : s.datagrams with
  | udp u => simp [hd] at hleaders
  | doh d =>
    simp only [hd] at hleaders ⊢
    have hmem : sampleBoth ∈ d.leaders.map (fun l => l.request.query.packet) := by
      rw [hleaders]
      exact List.mem_singleton_self _
    exact List.mem_map.mp hmem

end TransProxy.Dns.Forwarder
