import TransProxy.Dns.Question
import TransProxy.Dns.UdpSafety

/-!
# Which questions an accepted datagram has

A datagram is matched by its name, joined with dots, and its type, both read from
behind the header. The header is not asked whether there is a question, the dots
do not tell where a label ends, and a missing type is read as zero.
-/
namespace TransProxy.Dns

open Library Net

structure Question where
  labels : List Bytes
  qtype : UInt16
deriving DecidableEq

def firstQuestion (packet : Bytes) : Option Question :=
  if qdcount packet = 0 then none
  else
    match readLabels packet 12 with
    | none => none
    | some (labels, e) =>
      if h : packet.length < e + 2 then none else some ⟨labels, u16At packet e (u16_inBounds h)⟩

/-- Label by label, regardless of ASCII case, and the same type. -/
def Question.Same (x y : Question) : Prop :=
  List.Forall₂ (fun a b => eqIgnoreAsciiCase a b = true) x.labels y.labels ∧ x.qtype = y.qtype

def SameQuestion (p q : Bytes) : Prop :=
  ∃ x y, firstQuestion p = some x ∧ firstQuestion q = some y ∧ x.Same y

def OneQuestion (packet : Bytes) : Prop := qdcount packet = 1 ∧ (questionSection packet).isSome

/-- The packet declares a question and holds its type, and its labels are as long as
those of the query. -/
def SameShape (p q : Bytes) : Prop :=
  1 ≤ qdcount p ∧ ∃ xs e ys e', readLabels p 12 = some (xs, e) ∧ readLabels q 12 = some (ys, e') ∧
    e + 2 ≤ p.length ∧ xs.map List.length = ys.map List.length

theorem firstQuestion_eq_some_iff {packet : Bytes} {x : Question} :
    firstQuestion packet = some x ↔ 1 ≤ qdcount packet ∧ ∃ e, ∃ h : e + 2 ≤ packet.length,
      readLabels packet 12 = some (x.labels, e) ∧ u16At packet e h = x.qtype := by
  rw [firstQuestion]
  by_cases hzero : qdcount packet = 0
  · simp [hzero]
  cases hread : readLabels packet 12 with
  | none => simp [hzero]
  | some r =>
    obtain ⟨labels, e⟩ := r
    by_cases hshort : packet.length < e + 2
    · simp [hzero, hshort]
    · obtain ⟨xlabels, xqtype⟩ := x
      have hle : e + 2 ≤ packet.length := Nat.le_of_not_lt hshort
      have hone : 1 ≤ qdcount packet := Nat.one_le_iff_ne_zero.mpr hzero
      simp [hzero, hle, hone, Nat.not_lt.mpr hle]

/-- The dotted name, without the case of its letters, is the labels joined. -/
theorem toAsciiLowercase_intercalate (strs : List String) :
    (strBytes (".".intercalate strs)).map toAsciiLowercase =
      [46].intercalate ((strs.map strBytes).map (List.map toAsciiLowercase)) := by
  rw [strBytes_intercalate, map_intercalate]
  rfl

theorem forall₂_eqIgnoreAsciiCase_iff {xs ys : List Bytes} :
    List.Forall₂ (fun a b => eqIgnoreAsciiCase a b = true) xs ys ↔
      xs.map (List.map toAsciiLowercase) = ys.map (List.map toAsciiLowercase) := by
  induction xs generalizing ys with
  | nil => cases ys <;> simp
  | cons x xs ih =>
    cases ys with
    | nil => simp
    | cons y ys => rw [List.forall₂_cons, ih, eqIgnoreAsciiCase_iff, List.map_cons, List.map_cons,
        List.cons.injEq]

/-- Names that agree as dotted strings agree label by label exactly when their labels
have the same lengths. -/
theorem forall₂_iff_of_eqIgnoreAsciiCase {xs ys : List String}
    (h : eqIgnoreAsciiCase (strBytes (".".intercalate xs)) (strBytes (".".intercalate ys)) = true) :
    List.Forall₂ (fun a b => eqIgnoreAsciiCase a b = true) (xs.map strBytes) (ys.map strBytes) ↔
      (xs.map strBytes).map List.length = (ys.map strBytes).map List.length := by
  rw [forall₂_eqIgnoreAsciiCase_iff]
  rw [eqIgnoreAsciiCase_iff, toAsciiLowercase_intercalate, toAsciiLowercase_intercalate] at h
  constructor
  · intro heq
    have hlen := congrArg (List.map List.length) heq
    simpa [Function.comp_def] using hlen
  · intro hlen
    apply intercalate_injective _ h
    simpa [Function.comp_def] using hlen

theorem parseQueryType_of_readLabels {packet : Bytes} {labels : List Bytes} {e : ℕ}
    (h : readLabels packet 12 = some (labels, e)) (he : e + 2 ≤ packet.length) :
    parseQueryType packet = some (u16At packet e he) := by
  rw [parseQueryType_eq (skipDnsName_of_readLabels packet 12 _ h), dif_neg (by omega)]

/-- The one question of a packet with a name. -/
theorem OneQuestion.firstQuestion {packet : Bytes} (hone : OneQuestion packet)
    {labels : List Bytes} {e : ℕ} (h : readLabels packet 12 = some (labels, e)) :
    ∃ he : e + 2 ≤ packet.length, firstQuestion packet = some ⟨labels, u16At packet e he⟩ := by
  obtain ⟨hcount, hsec⟩ := hone
  obtain ⟨sec, hsec⟩ := Option.isSome_iff_exists.mp hsec
  obtain ⟨_, stop, hwalk, _⟩ := questionSection_eq_some_iff.mp hsec
  rw [hcount] at hwalk
  obtain ⟨p, hname, _, hin⟩ := skipQuestions_succ hwalk
  obtain rfl : p = e := Option.some.inj (hname.symm.trans (skipDnsName_of_readLabels packet 12 _ h))
  have he : p + 2 ≤ packet.length := by omega
  exact ⟨he, firstQuestion_eq_some_iff.mpr ⟨hcount.ge, p, he, h, rfl⟩⟩

namespace Udp

def Consumes (s : State) (a : Acceptance) (q : ClientQuery) : Prop :=
  ∃ i, a.query = some i ∧ s.queries[i]? = some q

theorem Consumes.unique {s : State} {a : Acceptance} {q q' : ClientQuery} (h : Consumes s a q)
    (h' : Consumes s a q') : q = q' := by
  obtain ⟨i, hi, hq⟩ := h
  obtain ⟨i', hi', hq'⟩ := h'
  obtain rfl := Option.some.inj (hi.symm.trans hi')
  exact Option.some.inj (hq.symm.trans hq')

/-- No datagram with another question, or without one, is accepted, relayed or allowed
to change the table. -/
structure MatchingExact (stripAaaa : Bool) (table : DnsTable) (acts : List Action) (s : State) :
    Prop where
  accepted : ∀ a ∈ s.accepted, ∃ q, Consumes s a q ∧ SameQuestion a.datagram q.packet
  relayed : ∀ r ∈ s.relayed, ∃ q, Consumes s r.acceptance q ∧
    SameQuestion r.acceptance.datagram q.packet
  rows : ∀ before act after t t', acts = before ++ act :: after →
    (system stripAaaa table).run before = some t →
    (system stripAaaa table).step t act = some t' → t'.table ≠ t.table →
      ∃ a ips q, t.reader = .resolving a ips ∧ Consumes s a q ∧ SameQuestion a.datagram q.packet

section Runs
variable {stripAaaa : Bool} {table : DnsTable} {acts : List Action} {s : State}

/-- What the reader compared before it accepted the datagram. -/
theorem compared_of_run (hrun : (system stripAaaa table).run acts = some s) : ∀ a ∈ s.accepted,
    parseQueryName a.datagram = some a.name ∧
      eqIgnoreAsciiCase (strBytes a.entry.name) (strBytes a.name) = true ∧
        a.entry.qtype = (parseQueryType a.datagram).getD 0 := by
  refine System.Reachable.invariant (S := system stripAaaa table) (I := fun s => ∀ a ∈ s.accepted,
    parseQueryName a.datagram = some a.name ∧
      eqIgnoreAsciiCase (strBytes a.entry.name) (strBytes a.name) = true ∧
        a.entry.qtype = (parseQueryType a.datagram).getD 0) ?_ ?_ ⟨acts, hrun⟩
  · intro a ha
    cases ha
  · intro s act t ih hstep a ha
    rcases step_accepted hstep ha with hold | ⟨txId, map, _, hmatch, _⟩
    · exact ih a hold
    · obtain ⟨_, _, _, hname, htake⟩ := readerMatch_eq_some_iff.mp hmatch
      obtain ⟨_, _, hsame, htype⟩ := pendingTakeMatch_eq_some_iff.mp htake
      exact ⟨hname, hsame, htype⟩

/-- An entry without a name takes no datagram, since the name of a datagram is not empty. -/
theorem isSome_of_compared {datagram : Bytes} {query : Option String} {name : String}
    (hname : parseQueryName datagram = some name)
    (hsame : eqIgnoreAsciiCase (strBytes (query.getD "")) (strBytes name) = true) :
    query.isSome := by
  by_contra hnone
  obtain ⟨xs, e, hxs, hread, rfl⟩ := parseQueryName_eq_some_iff.mp hname
  obtain ⟨x, xs, rfl⟩ := List.exists_cons_of_ne_nil hxs
  have hx : strBytes x ≠ [] := ne_nil_of_readLabels datagram 12 _ hread _ (by simp)
  have hempty : strBytes (".".intercalate (x :: xs)) = [] := by
    rw [Option.not_isSome_iff_eq_none.mp hnone, eqIgnoreAsciiCase_iff] at hsame
    exact List.map_eq_nil_iff.mp hsame.symm
  rw [strBytes_intercalate, List.map_cons] at hempty
  exact intercalate_ne_nil hx hempty

/-- A datagram accepted for a query with one question has that question exactly when
it has its shape. -/
theorem sameQuestion_iff_sameShape (hrun : (system stripAaaa table).run acts = some s)
    {a : Acceptance} (ha : a ∈ s.accepted) {q : ClientQuery} (hq : Consumes s a q)
    (hone : OneQuestion q.packet) :
    SameQuestion a.datagram q.packet ↔ SameShape a.datagram q.packet := by
  obtain ⟨hname, hsame, htype⟩ := compared_of_run hrun a ha
  obtain ⟨i, q', hi, hq', hrec⟩ := (inv_of_run hrun).answers a ha
  obtain ⟨i', hi', hqi⟩ := hq
  obtain rfl := Option.some.inj (hi.symm.trans hi')
  obtain rfl := Option.some.inj (hq'.symm.trans hqi)
  obtain ⟨_, _, _, hentryName, hentryType⟩ := hrec
  rw [hentryName] at hsame
  rw [hentryType] at htype
  obtain ⟨qname, hqname⟩ := Option.isSome_iff_exists.mp (isSome_of_compared hname hsame)
  obtain ⟨xs, e, _, hread, hjoin⟩ := parseQueryName_eq_some_iff.mp hname
  obtain ⟨ys, e', _, hread', hjoin'⟩ := parseQueryName_eq_some_iff.mp hqname
  obtain ⟨he', hfirst⟩ := hone.firstQuestion hread'
  rw [hqname, Option.getD_some, ← hjoin, ← hjoin'] at hsame
  have hlabels := forall₂_iff_of_eqIgnoreAsciiCase (eqIgnoreAsciiCase_symm hsame)
  constructor
  · rintro ⟨x, y, hx, hy, hforall, _⟩
    obtain ⟨hcount, e₁, he₁, hread₁, _⟩ := firstQuestion_eq_some_iff.mp hx
    obtain ⟨hxlabels, rfl⟩ := Prod.mk.inj (Option.some.inj (hread.symm.trans hread₁))
    obtain rfl := Option.some.inj (hfirst.symm.trans hy)
    rw [← hxlabels] at hforall
    exact ⟨hcount, _, e, _, e', hread, hread', he₁, hlabels.mp hforall⟩
  · rintro ⟨hcount, xs₁, e₁, ys₁, e₁', hread₁, hread₁', he₁, hlen⟩
    obtain ⟨rfl, rfl⟩ := Prod.mk.inj (Option.some.inj (hread.symm.trans hread₁))
    obtain ⟨rfl, rfl⟩ := Prod.mk.inj (Option.some.inj (hread'.symm.trans hread₁'))
    refine ⟨⟨xs.map strBytes, u16At a.datagram e he₁⟩, _,
      firstQuestion_eq_some_iff.mpr ⟨hcount, e, he₁, hread, rfl⟩, hfirst, hlabels.mpr hlen, ?_⟩
    rw [parseQueryType_of_readLabels hread he₁, parseQueryType_of_readLabels hread' he'] at htype
    exact htype.symm

theorem exists_consumes (hrun : (system stripAaaa table).run acts = some s) {a : Acceptance}
    (ha : a ∈ s.accepted) : ∃ q ∈ s.queries, Consumes s a q := by
  obtain ⟨i, q, hi, hq, _⟩ := (inv_of_run hrun).answers a ha
  exact ⟨q, List.mem_of_getElem? hq, i, hi, hq⟩

/-- Over every run whose queries contain one question each: an accepted datagram has the
question of its query exactly when it has the shape, and the matching of the run is
exact exactly when all of them have. -/
theorem matchingExact_iff (acts : List Action) (hrun : (system stripAaaa table).run acts = some s)
    (hone : ∀ q ∈ s.queries, OneQuestion q.packet) :
    (∀ a ∈ s.accepted, ∃ q, Consumes s a q ∧
      (SameQuestion a.datagram q.packet ↔ SameShape a.datagram q.packet)) ∧
    (MatchingExact stripAaaa table acts s ↔
      ∀ a ∈ s.accepted, ∀ q, Consumes s a q → SameShape a.datagram q.packet) := by
  have hsame : ∀ a ∈ s.accepted, ∀ q, Consumes s a q →
      (SameQuestion a.datagram q.packet ↔ SameShape a.datagram q.packet) := by
    intro a ha q ⟨i, hi, hqi⟩
    exact sameQuestion_iff_sameShape hrun ha ⟨i, hi, hqi⟩ (hone q (List.mem_of_getElem? hqi))
  refine ⟨?_, ?_, ?_⟩
  · intro a ha
    obtain ⟨q, _, hq⟩ := exists_consumes hrun ha
    exact ⟨q, hq, hsame a ha q hq⟩
  · intro hexact a ha q hq
    obtain ⟨q', hq', hquestion⟩ := hexact.accepted a ha
    obtain rfl : q' = q := hq'.unique hq
    exact (hsame a ha q' hq').mp hquestion
  · intro hshape
    have haccepted : ∀ a ∈ s.accepted, ∃ q, Consumes s a q ∧ SameQuestion a.datagram q.packet := by
      intro a ha
      obtain ⟨q, _, hq⟩ := exists_consumes hrun ha
      exact ⟨q, hq, (hsame a ha q hq).mpr (hshape a ha q hq)⟩
    refine ⟨haccepted, ?_, ?_⟩
    · intro r hr
      have hrelays := (inv_of_run hrun).relays
      exact haccepted _ (hrelays.subset (List.mem_append_left _ (List.mem_map_of_mem hr)))
    · intro before act after t t' hacts ht hstep hne
      obtain ⟨a, ips, hreader⟩ := step_table hstep hne
      have hmem := (inv_of_run ht).inFlight_mem hreader
      obtain ⟨u, hu, hrest⟩ := System.exists_prefix_of_run (hacts ▸ hrun)
      obtain rfl := Option.some.inj (ht.symm.trans hu)
      have hgrow : t.accepted <+: s.accepted :=
        System.runFrom_invariant (S := system stripAaaa table)
          (I := fun v => t.accepted <+: v.accepted)
          (fun _ _ _ _ hI hst => hI.trans (step_history hst)) hrest List.prefix_rfl
      obtain ⟨q, hq, hquestion⟩ := haccepted a (hgrow.subset hmem)
      exact ⟨a, ips, q, hreader, hq, hquestion⟩

end Runs

theorem oneQuestion_questionA : OneQuestion (sampleQuery questionA) :=
  ⟨by decide +kernel, by decide +kernel⟩

theorem matchingExact_iff_sample : ∃ s,
    (system false ∅).run (sampleForward (sampleQuery questionA) ++
      [.upstreamDatagram answerA, .insertRow 0 0 .stored, .reply true]) = some s ∧
    s.accepted.map Acceptance.datagram = [answerA] ∧
    MatchingExact false ∅ (sampleForward (sampleQuery questionA) ++
      [.upstreamDatagram answerA, .insertRow 0 0 .stored, .reply true]) s := by
  have hrun : ((system false ∅).run (sampleForward (sampleQuery questionA) ++
      [.upstreamDatagram answerA, .insertRow 0 0 .stored, .reply true])).map
        (fun s => (s.accepted.map Acceptance.datagram, s.queries)) =
          some ([answerA], [⟨sampleClient, sampleQuery questionA⟩]) := by
    decide +kernel
  obtain ⟨s, hs, hfields⟩ := Option.map_eq_some_iff.mp hrun
  obtain ⟨haccepted, hqueries⟩ := Prod.mk.inj hfields
  have hqueryA : ∀ q ∈ s.queries, q = ⟨sampleClient, sampleQuery questionA⟩ := by
    simp [hqueries]
  refine ⟨s, hs, haccepted, (matchingExact_iff _ hs ?_).2.mpr ?_⟩
  · intro q hq
    rw [hqueryA q hq]
    exact oneQuestion_questionA
  · intro a ha q ⟨i, _, hq⟩
    have hdatagram : a.datagram = answerA := by
      have hmem := List.mem_map_of_mem (f := Acceptance.datagram) ha
      rwa [haccepted, List.mem_singleton] at hmem
    rw [hdatagram, hqueryA q (List.mem_of_getElem? hq)]
    exact ⟨by decide +kernel, [[97]], 15, [[97]], 15, by decide +kernel, by decide +kernel,
      by decide, rfl⟩

/-- No question, and an address record for `a` where the question would be. -/
def undeclaredA : Bytes :=
  [0xAB, 0xCD, 0x81, 0x80, 0, 0, 0, 1, 0, 0, 0, 0] ++ [1, 97, 0, 0, 1, 0, 1] ++
    [0, 0, 0, 60, 0, 4, 192, 0, 2, 66]

/-- A datagram that declares no question is relayed, and its record enters the table. -/
theorem not_matchingExact_undeclared : ∃ s,
    (system false ∅).run (sampleForward (sampleQuery questionA) ++
      [.upstreamDatagram undeclaredA, .insertRow 0 0 .stored, .reply true]) = some s ∧
    (∀ q ∈ s.queries, OneQuestion q.packet) ∧ qdcount undeclaredA = 0 ∧
    s.relayed.map Reply.data = [[0x12, 0x34] ++ undeclaredA.drop 2] ∧
    s.table.lookup (.v4 (.new 192 0 2 66)) 0 = some "a" ∧
    ¬ MatchingExact false ∅ (sampleForward (sampleQuery questionA) ++
      [.upstreamDatagram undeclaredA, .insertRow 0 0 .stored, .reply true]) s := by
  have hrun : ((system false ∅).run (sampleForward (sampleQuery questionA) ++
      [.upstreamDatagram undeclaredA, .insertRow 0 0 .stored, .reply true])).map
        (fun s => (s.accepted.map Acceptance.datagram, s.queries, s.relayed.map Reply.data,
          s.table.lookup (.v4 (.new 192 0 2 66)) 0)) =
        some ([undeclaredA], [⟨sampleClient, sampleQuery questionA⟩],
          [[0x12, 0x34] ++ undeclaredA.drop 2], some "a") := by
    decide +kernel
  obtain ⟨s, hs, hfields⟩ := Option.map_eq_some_iff.mp hrun
  simp only [Prod.mk.injEq] at hfields
  obtain ⟨haccepted, hqueries, hrelayed, hrow⟩ := hfields
  refine ⟨s, hs, ?_, by decide, hrelayed, hrow, ?_⟩
  · intro q hq
    obtain rfl : q = ⟨sampleClient, sampleQuery questionA⟩ := by simpa [hqueries] using hq
    exact oneQuestion_questionA
  · intro hexact
    obtain ⟨a, ha, hdatagram⟩ : ∃ a ∈ s.accepted, a.datagram = undeclaredA := by
      rw [← List.mem_map, haccepted]
      exact List.mem_singleton_self _
    obtain ⟨q, _, x, y, hx, _⟩ := hexact.accepted a ha
    have hnone : firstQuestion undeclaredA = none := by decide
    rw [hdatagram, hnone] at hx
    cases hx

end Udp
end TransProxy.Dns
