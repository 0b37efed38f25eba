import TransProxy.Dns.Question
import TransProxy.Dns.UdpSafety

/-!
# Which answers reach the client

An answer repeats the question section of its query. The reader parses the name
of the question once more and drops the datagram when there is none, where the
client loop goes on with an empty name.
-/
namespace TransProxy.Dns.Udp
open Library Net

def Repeats (datagram : Bytes) (id : UInt16) (sec : Bytes) : Prop :=
  ∃ h : 12 ≤ datagram.length, u16At datagram 0 (by omega) = id ∧ datagram[2] &&& 0x80 ≠ 0 ∧
    questionSection datagram = some sec

def SendsSucceed (acts : List Action) : Prop := Action.reply false ∉ acts

/-- From the moment the reader takes the datagram, whatever the two tasks do: the
reader can get back to its socket, and once it is there, the client has been sent the
datagram with its own transaction ID. -/
structure Delivers (stripAaaa : Bool) (table : DnsTable) (s : State) (q : ClientQuery)
    (datagram : Bytes) : Prop where
  returns : ∀ rest t,
    (system stripAaaa table).runFrom s (.upstreamDatagram datagram :: rest) = some t →
      ∃ more u, SendsSucceed more ∧ (system stripAaaa table).runFrom t more = some u ∧
        u.reader = .receiving
  answered : ∀ rest t,
    (system stripAaaa table).runFrom s (.upstreamDatagram datagram :: rest) = some t →
      t.reader = .receiving → SendsSucceed rest →
        ∃ r ∈ t.relayed.drop s.relayed.length,
          r.addr = q.addr ∧ r.data = q.packet.take 2 ++ datagram.drop 2

def Acceptance.reply (a : Acceptance) : Reply :=
  { acceptance := a, addr := a.entry.clientAddr, data := setTxId a.datagram a.entry.clientTxId }

/-- What one step does to the reader and to the replies. -/
theorem step_reader {stripAaaa : Bool} {s t : State} {act : Action}
    (h : step stripAaaa s act = some t) :
    (t.reader = s.reader ∧ t.relayed = s.relayed) ∨
      (s.reader = .receiving ∧ t.relayed = s.relayed) ∨
      (∃ a ip ips, s.reader = .resolving a (ip :: ips) ∧ t.reader = .resolving a ips ∧
        t.relayed = s.relayed) ∨
      ∃ a ok, act = .reply ok ∧ s.reader = .resolving a [] ∧
        t.relayed = if ok then s.relayed ++ [a.reply] else s.relayed := by
  cases act with
  | clientDatagram addr packet created now order draws =>
    left
    obtain ⟨_, rfl⟩ := step_clientDatagram h
    obtain ⟨out, h⟩ | h | ⟨entry, id, hrec, hfree, h⟩ :=
      clientReceive_cases stripAaaa s addr packet created now order draws <;>
      rw [h] <;> exact ⟨rfl, rfl⟩
  | clientError => left; rw [step_clientError h]; exact ⟨rfl, rfl⟩
  | forward ok => left; obtain ⟨sent, rfl⟩ := step_forward h; exact ⟨rfl, rfl⟩
  | upstreamDatagram datagram =>
    right; left
    obtain ⟨hidle, rfl⟩ := step_upstreamDatagram h
    refine ⟨hidle, ?_⟩
    obtain ⟨_, h⟩ | ⟨_, _, _, _, _, h⟩ := readerReceive_cases s datagram
    · rw [h]
    · rw [h]
      rfl
  | insertRow now evictNow order =>
    right; right; left
    obtain ⟨a, ip, ips, rows, hreader, rfl⟩ := step_insertRow h
    exact ⟨a, ip, ips, hreader, rfl, rfl⟩
  | reply ok =>
    right; right; right
    obtain ⟨a, hreader, rfl⟩ := step_reply h
    exact ⟨a, ok, rfl, hreader, rfl⟩

/-- The acceptance is being worked on, or its reply has been added to the earlier ones. -/
def Answering (sent : List Reply) (a : Acceptance) (s : State) : Prop :=
  (∃ ips, s.reader = .resolving a ips ∧ s.relayed = sent) ∨ (sent ++ [a.reply]) <+: s.relayed

theorem Answering.step {sent : List Reply} {a : Acceptance} {stripAaaa : Bool} {s t : State}
    {act : Action} (hs : Answering sent a s) (hok : act ≠ .reply false)
    (h : step stripAaaa s act = some t) : Answering sent a t := by
  rcases hs with ⟨ips, hreader, hsent⟩ | hdone
  · rcases step_reader h with ⟨hr, hq⟩ | ⟨hidle, _⟩ | ⟨b, ip, ips', hb, hr, hq⟩ | ⟨b, ok, rfl, hb, hq⟩
    · exact .inl ⟨ips, hr.trans hreader, hq.trans hsent⟩
    · rw [hreader] at hidle
      cases hidle
    · obtain ⟨rfl, rfl⟩ : a = b ∧ ips = ip :: ips' := by simpa [hreader] using hb
      exact .inl ⟨ips', hr, hq.trans hsent⟩
    · obtain ⟨rfl, rfl⟩ : a = b ∧ ips = [] := by simpa [hreader] using hb
      cases ok with
      | false => exact absurd rfl hok
      | true =>
        rw [hsent] at hq
        exact .inr (hq ▸ List.prefix_rfl)
  · right
    rcases step_reader h with ⟨_, hq⟩ | ⟨_, hq⟩ | ⟨_, _, _, _, _, hq⟩ | ⟨b, ok, _, _, hq⟩
    · exact hq ▸ hdone
    · exact hq ▸ hdone
    · exact hq ▸ hdone
    · rw [hq]
      cases ok with
      | false => exact hdone
      | true => exact hdone.trans (List.prefix_append _ _)

/-- The reader always gets back to its socket by its own steps. -/
theorem exists_run_receiving (stripAaaa : Bool) (table : DnsTable) (s : State) :
    ∃ more u, SendsSucceed more ∧ (system stripAaaa table).runFrom s more = some u ∧
      u.reader = .receiving := by
  cases hreader : s.reader with
  | receiving => exact ⟨[], s, by simp [SendsSucceed], rfl, hreader⟩
  | resolving a ips =>
    induction ips generalizing s with
    | nil =>
      obtain ⟨t, ht, hback⟩ : ∃ t, step stripAaaa s (.reply true) = some t ∧
          t.reader = .receiving := by
        simp only [step, hreader]
        exact ⟨_, rfl, rfl⟩
      refine ⟨[.reply true], t, by simp [SendsSucceed], ?_, hback⟩
      rw [System.runFrom_cons_of_step _ ht, System.runFrom_nil]
    | cons ip ips ih =>
      obtain ⟨t, ht, hrest⟩ : ∃ t, step stripAaaa s (.insertRow 0 0 .stored) = some t ∧
          t.reader = .resolving a ips := by
        simp only [step, hreader]
        exact ⟨_, rfl, rfl⟩
      obtain ⟨more, u, hsends, hrun, hu⟩ := ih t hrest
      refine ⟨.insertRow 0 0 .stored :: more, u, by simpa [SendsSucceed] using hsends, ?_, hu⟩
      rw [System.runFrom_cons_of_step _ ht, hrun]

section Delivery
variable {stripAaaa : Bool} {table : DnsTable} {s : State}

/-- A datagram that matches the entry of a query is delivered. -/
theorem delivers_of_match {datagram : Bytes}
    {q : ClientQuery} {txId : UInt16} {name : String} {entry : PendingQuery} {map : PendingMap}
    (hmatch : readerMatch s.pending datagram = some (txId, name, entry, map))
    (hrec : Records q entry) : Delivers stripAaaa table s q datagram := by
  refine ⟨fun _ t _ => exists_run_receiving stripAaaa table t, fun rest t hrun hback hsends => ?_⟩
  obtain ⟨u, hu, hrest⟩ := Option.bind_eq_some_iff.mp hrun
  have hstep : step stripAaaa s (.upstreamDatagram datagram) = some u := hu
  obtain ⟨_, rfl⟩ := step_upstreamDatagram hstep
  obtain ⟨a, ha, hstart⟩ : ∃ a : Acceptance, (a.datagram = datagram ∧ a.entry = entry) ∧
      Answering s.relayed a (readerReceive s datagram) := by
    simp only [readerReceive, hmatch]
    exact ⟨_, ⟨rfl, rfl⟩, .inl ⟨_, rfl, rfl⟩⟩
  have hend := System.runFrom_invariant (S := system stripAaaa table)
    (I := Answering s.relayed a) (fun act hact _ _ hI hst =>
      hI.step (fun he => hsends (he ▸ hact)) hst) hrest hstart
  rcases hend with ⟨ips, hreader, _⟩ | ⟨later, hlater⟩
  · rw [hback] at hreader
    cases hreader
  · refine ⟨a.reply, ?_, ?_, ?_⟩
    · rw [← hlater, List.append_assoc, List.drop_left]
      exact List.mem_append_left _ (List.mem_singleton_self _)
    · rw [Acceptance.reply, ha.2]
      exact hrec.2.1
    · rw [Acceptance.reply, ha.1, ha.2]
      exact setTxId_client hrec datagram

/-- A datagram that the reader drops is not delivered. -/
theorem not_delivers_of_no_match (hidle : s.reader = .receiving) {datagram : Bytes}
    {q : ClientQuery} (hmatch : readerMatch s.pending datagram = none) :
    ¬ Delivers stripAaaa table s q datagram := by
  intro h
  have hstep : (system stripAaaa table).runFrom s [.upstreamDatagram datagram] = some s := by
    simp [System.runFrom_cons, system, step, hidle, readerReceive, hmatch]
  obtain ⟨r, hr, _⟩ := h.answered [] s hstep hidle (by simp [SendsSucceed])
  simp at hr

/-- The entry of a query takes a datagram with its identifier exactly when the name and
the type agree. -/
theorem readerMatch_of_lookup {datagram : Bytes} {id : UInt16} {sec : Bytes}
    {entry : PendingQuery} (hrep : Repeats datagram id sec)
    (hlookup : s.pending.lookup id = some entry) {name : String}
    (hname : parseQueryName datagram = some name)
    (hsame : eqIgnoreAsciiCase (strBytes entry.name) (strBytes name) = true)
    (htype : entry.qtype = (parseQueryType datagram).getD 0) :
    readerMatch s.pending datagram = some (id, name, entry, s.pending.erase id) := by
  obtain ⟨hlen, hid, hqr, _⟩ := hrep
  rw [readerMatch_eq_some_iff]
  exact ⟨Nat.not_lt.mpr hlen, hqr, hid, hname, pendingTakeMatch_eq_some_iff.mpr ⟨hlookup, rfl, hsame, htype⟩⟩

/-- A datagram without a name is dropped. -/
theorem readerMatch_of_no_name {pending : PendingMap} {datagram : Bytes}
    (h : parseQueryName datagram = none) : readerMatch pending datagram = none := by
  unfold readerMatch
  by_cases hlen : datagram.length < 12
  · simp [hlen]
  by_cases hqr : datagram[2] &&& 0x80 = 0
  · simp [hlen, hqr]
  · simp [hlen, hqr, h]

/-- The answer without records: a header, then the question section. -/
def emptyAnswer (id : UInt16) (qdHi qdLo : UInt8) (sec : Bytes) : Bytes :=
  u16ToBeBytes id ++ [0x80, 0, qdHi, qdLo, 0, 0, 0, 0, 0, 0] ++ sec

theorem qdcount_emptyAnswer {query : Bytes} (h : 12 ≤ query.length) (id : UInt16) (sec : Bytes) :
    qdcount (emptyAnswer id query[4] query[5] sec) = qdcount query := by
  rw [qdcount, qdcount, dif_neg (by simp [emptyAnswer, u16ToBeBytes]), dif_neg (by omega)]
  rfl

theorem repeats_emptyAnswer {query sec : Bytes} (h : 12 ≤ query.length)
    (hsec : questionSection query = some sec) (id : UInt16) :
    Repeats (emptyAnswer id query[4] query[5] sec) id sec := by
  obtain ⟨_, e, he, rfl⟩ := questionSection_eq_some_iff.mp hsec
  obtain ⟨hle, hbound⟩ := skipQuestions_bounds he
  have hlen : (emptyAnswer id query[4] query[5] (slice query 12 e)).length = e := by
    simp only [emptyAnswer, u16ToBeBytes, List.length_append, List.length_cons, List.length_nil,
      length_slice (hbound h)]
    omega
  have hdrop : (emptyAnswer id query[4] query[5] (slice query 12 e)).drop 12 = slice query 12 e :=
    rfl
  have hslice : slice (emptyAnswer id query[4] query[5] (slice query 12 e)) 12 e =
      slice query 12 e := by
    rw [slice, hdrop, List.take_of_length_le (by rw [length_slice (hbound h)])]
  have hag : AgreeOn 12 e query (emptyAnswer id query[4] query[5] (slice query 12 e)) :=
    (agreeOn_iff_slice_eq hle).mpr hslice
  refine ⟨by omega, ?_, ?_, ?_⟩
  · exact u16FromBeBytes_u16ToBeBytes id
  · simp [emptyAnswer, u16ToBeBytes]
  · rw [questionSection_eq_some_iff, qdcount_emptyAnswer h]
    exact ⟨by omega, e, skipQuestions_congr hag (Nat.le_refl _) (Nat.le_refl _) hlen.ge he, hslice⟩

/-- Without a question there is nothing to parse a name from. -/
theorem parseQueryName_emptyAnswer_nil (id : UInt16) (qdHi qdLo : UInt8) :
    parseQueryName (emptyAnswer id qdHi qdLo []) = none := by
  have hend : (emptyAnswer id qdHi qdLo []).length ≤ 12 := Nat.le_refl 12
  rw [parseQueryName, queryNameParts_end hend]

/-- The query declares a question, whose name has labels, all of them UTF-8, and no
compression pointer. -/
def NamedQuestion (packet : Bytes) : Prop :=
  1 ≤ qdcount packet ∧ ∃ labels e, readLabels packet 12 = some (labels, e) ∧ labels ≠ [] ∧
    ∀ label ∈ labels, (fromUtf8 label).isSome

/-- The answers to a query in flight reach the client exactly when the query has a name
that is not the root and that can be rendered. -/
theorem delivers_repeats_iff (acts : List Action)
    (hrun : (system stripAaaa table).run acts = some s) (hidle : s.reader = .receiving)
    (o : Outstanding) (ho : o ∈ s.outstanding) (q : ClientQuery)
    (hq : s.queries[o.query]? = some q) (sec : Bytes) (hsec : questionSection q.packet = some sec) :
    (∀ datagram, Repeats datagram o.id sec → Delivers stripAaaa table s q datagram) ↔
      NamedQuestion q.packet := by
  rw [NamedQuestion, ← isSome_parseQueryName_iff]
  obtain ⟨q', entry, hq', hlookup, hrec⟩ := (inv_of_run hrun).owned o ho
  obtain rfl := Option.some.inj (hq.symm.trans hq')
  have hlen : 12 ≤ q.packet.length := hrec.1
  constructor
  · intro hall
    by_contra hno
    have hrep := repeats_emptyAnswer hlen hsec o.id
    refine not_delivers_of_no_match hidle (readerMatch_of_no_name ?_) (hall _ hrep)
    by_cases hone : 1 ≤ qdcount q.packet
    · have hnone : parseQueryName q.packet = none := by simpa [hone] using hno
      rw [(parse_eq_of_questionSection hsec hrep.2.2.2 hone).1, hnone]
    · -- no question is declared, so the section is empty
      obtain ⟨_, e, he, rfl⟩ := questionSection_eq_some_iff.mp hsec
      rw [show qdcount q.packet = 0 by omega] at he
      obtain rfl := Option.some.inj he
      simpa [slice] using parseQueryName_emptyAnswer_nil o.id q.packet[4] q.packet[5]
  · rintro ⟨hone, hsome⟩ datagram hrep
    obtain ⟨name, hname⟩ := Option.isSome_iff_exists.mp hsome
    obtain ⟨hsame, htype⟩ := parse_eq_of_questionSection hsec hrep.2.2.2 hone
    have hentryName := hrec.2.2.2.1
    have hentryType := hrec.2.2.2.2
    have hmatch := readerMatch_of_lookup hrep hlookup (hsame.trans hname)
      (by rw [hentryName, hname]; exact eqIgnoreAsciiCase_refl _) (by rw [hentryType, htype])
    exact delivers_of_match hmatch hrec

end Delivery

theorem delivers_repeats_iff_sample : ∃ s,
    (system false ∅).run (sampleForward (sampleQuery questionA)) = some s ∧
      ∀ datagram, Repeats datagram 0xABCD questionA →
        Delivers false ∅ s ⟨sampleClient, sampleQuery questionA⟩ datagram := by
  have hrun : ((system false ∅).run (sampleForward (sampleQuery questionA))).map
      (fun s => (s.reader.inFlight.length, s.outstanding, s.queries)) =
        some (0, [⟨0, 0xABCD⟩], [⟨sampleClient, sampleQuery questionA⟩]) := by
    decide +kernel
  obtain ⟨s, hs, hfields⟩ := Option.map_eq_some_iff.mp hrun
  simp only [Prod.mk.injEq] at hfields
  obtain ⟨hidle, hout, hqueries⟩ := hfields
  refine ⟨s, hs, (delivers_repeats_iff _ hs (ReaderTask.eq_receiving hidle) ⟨0, 0xABCD⟩
    (by simp [hout]) ⟨sampleClient, sampleQuery questionA⟩ (by simp [hqueries]) questionA (by decide +kernel)).mpr
      ⟨by decide +kernel, isSome_parseQueryName_iff.mp (by decide +kernel)⟩⟩

def questionRoot : Bytes := [0, 0, 1, 0, 1]

/-- The query for the root name goes upstream, its answer does not come back. -/
theorem not_delivers_root : ∃ s,
    (system false ∅).run (sampleForward (sampleQuery questionRoot)) = some s ∧
      s.reader = .receiving ∧ ⟨0, 0xABCD⟩ ∈ s.outstanding ∧
      s.queries[0]? = some ⟨sampleClient, sampleQuery questionRoot⟩ ∧
      questionSection (sampleQuery questionRoot) = some questionRoot ∧
      Repeats (emptyAnswer 0xABCD 0 1 questionRoot) 0xABCD questionRoot ∧
      ¬ Delivers false ∅ s ⟨sampleClient, sampleQuery questionRoot⟩
        (emptyAnswer 0xABCD 0 1 questionRoot) := by
  have hrun : ((system false ∅).run (sampleForward (sampleQuery questionRoot))).map
      (fun s => (s.reader.inFlight.length, s.outstanding, s.queries)) =
        some (0, [⟨0, 0xABCD⟩], [⟨sampleClient, sampleQuery questionRoot⟩]) := by
    decide +kernel
  obtain ⟨s, hs, hfields⟩ := Option.map_eq_some_iff.mp hrun
  simp only [Prod.mk.injEq] at hfields
  obtain ⟨hidle, hout, hqueries⟩ := hfields
  refine ⟨s, hs, ReaderTask.eq_receiving hidle, by simp [hout], by simp [hqueries],
    by decide +kernel, ?_, ?_⟩
  · have hlen : 12 ≤ (sampleQuery questionRoot).length := by decide
    exact repeats_emptyAnswer hlen (by decide +kernel) 0xABCD
  · exact not_delivers_of_no_match (ReaderTask.eq_receiving hidle)
      (readerMatch_of_no_name (by decide +kernel))

end TransProxy.Dns.Udp
