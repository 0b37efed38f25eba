import TransProxy.Dns.TcpForward
import TransProxy.Dns.TcpFraming

/-!
# Replies in the order of the queries

What a connection has written is the frames of the replies that it owes, at any time up to
what of them it still has to write.
-/
namespace TransProxy.Dns.Tcp
open Library Net

variable {stripAaaa : Bool}

/-- The failures among the actions, by which a connection loses bytes of its client or of its
own. -/
def ReadFailed (acts : List (Action × DnsTable)) : Prop := ∃ act ∈ acts, act.1 = .readFail

def WriteFailed (acts : List (Action × DnsTable)) : Prop := ∃ act ∈ acts, act.1 = .writeFail

/-- What has been written in each phase, and what part `rest` of the stream stands behind the
queries. -/
inductive Stage (stripAaaa : Bool) (acts : List (Action × DnsTable)) (c : Connection)
    (rest : Bytes) : Phase → Prop
  | readingLength (hserved : Served stripAaaa c.queries (outcomes acts))
      (hwritten : c.written = frames (replies stripAaaa c.queries (outcomes acts)))
      (hrest : rest = c.inbox) : Stage stripAaaa acts c rest .readingLength
  | readingQuery {len : ℕ} (hserved : Served stripAaaa c.queries (outcomes acts))
      (hwritten : c.written = frames (replies stripAaaa c.queries (outcomes acts)))
      (hlen : 12 ≤ len ∧ len ≤ 65535) (hrest : rest = u16ToBeBytes (UInt16.ofNat len) ++ c.inbox) :
      Stage stripAaaa acts c rest (.readingQuery len)
  | forwarding {queries : List Bytes} {query : Bytes} (hqueries : c.queries = queries ++ [query])
      (hstrip : ¬ Stripped stripAaaa query) (hserved : Served stripAaaa queries (outcomes acts))
      (hwritten : c.written = frames (replies stripAaaa queries (outcomes acts)))
      (hrest : rest = c.inbox) : Stage stripAaaa acts c rest (.forwarding query)
  | resolving {query response : Bytes} {ips : List IpAddr}
      (hserved : Served stripAaaa c.queries (outcomes acts))
      (hwritten : c.written ++ frame response =
        frames (replies stripAaaa c.queries (outcomes acts)))
      (hrest : rest = c.inbox) : Stage stripAaaa acts c rest (.resolving query response ips)
  | writing {unwritten : Bytes} (hserved : Served stripAaaa c.queries (outcomes acts))
      (hwritten : c.written ++ unwritten = frames (replies stripAaaa c.queries (outcomes acts)))
      (hrest : rest = c.inbox) : Stage stripAaaa acts c rest (.writing unwritten)
  | ended (hends : Ends stripAaaa c.queries (outcomes acts))
      (hwritten : c.written = frames (replies stripAaaa c.queries (outcomes acts))) :
      Stage stripAaaa acts c rest .closed
  | short {hi lo : UInt8} {more : Bytes}
      (hwritten : c.written = frames (replies stripAaaa c.queries (outcomes acts)))
      (hshort : (u16FromBeBytes hi lo).toNat < 12) (hrest : rest = hi :: lo :: more) :
      Stage stripAaaa acts c rest .closed
  | readFailed (hfailed : ReadFailed acts)
      (hwritten : c.written = frames (replies stripAaaa c.queries (outcomes acts))) :
      Stage stripAaaa acts c rest .closed
  | writeFailed (hfailed : WriteFailed acts)
      (hwritten : c.written <+: frames (replies stripAaaa c.queries (outcomes acts))) :
      Stage stripAaaa acts c rest .closed

structure Inv (stripAaaa : Bool) (acts : List (Action × DnsTable)) (c : Connection) : Prop where
  queries : ∀ query ∈ c.queries, Framable query ∧ 12 ≤ query.length
  stage : ∃ rest, arrived acts = frames c.queries ++ rest ∧ Stage stripAaaa acts c rest c.phase

variable {acts : List (Action × DnsTable)} {act : Action × DnsTable} {c c' : Connection}

theorem arrived_snoc (acts : List (Action × DnsTable)) (act : Action × DnsTable) :
    arrived (acts ++ [act]) = arrived acts ++ act.1.arrived := by
  simp [arrived]

theorem outcomes_snoc (acts : List (Action × DnsTable)) (act : Action × DnsTable) :
    outcomes (acts ++ [act]) = outcomes acts ++ act.1.outcome.toList := by
  cases h : act.1.outcome <;> simp [outcomes, h]

theorem outcomes_snoc_of_none (h : act.1.outcome = none) :
    outcomes (acts ++ [act]) = outcomes acts := by
  rw [outcomes_snoc, h, Option.toList_none, List.append_nil]

theorem inv_start : Inv stripAaaa [] start :=
  ⟨by simp [start], [], rfl, .readingLength served_nil rfl rfl⟩

theorem ReadFailed.snoc (h : ReadFailed acts) (act : Action × DnsTable) :
    ReadFailed (acts ++ [act]) :=
  h.imp fun _ h => ⟨List.mem_append_left _ h.1, h.2⟩

theorem WriteFailed.snoc (h : WriteFailed acts) (act : Action × DnsTable) :
    WriteFailed (acts ++ [act]) :=
  h.imp fun _ h => ⟨List.mem_append_left _ h.1, h.2⟩

/-- More of the stream stands behind what there was. -/
theorem Stage.arrive {rest data : Bytes} {table : DnsTable} {phase : Phase}
    (h : Stage stripAaaa acts c rest phase) :
    Stage stripAaaa (acts ++ [(.arrive data, table)]) { c with inbox := c.inbox ++ data }
      (rest ++ data) phase := by
  have houtcomes : outcomes (acts ++ [(.arrive data, table)]) = outcomes acts :=
    outcomes_snoc_of_none rfl
  cases h with
  | readingLength hserved hwritten hrest =>
    exact .readingLength (by rwa [houtcomes]) (by rwa [houtcomes]) (by rw [hrest])
  | readingQuery hserved hwritten hlen hrest =>
    exact .readingQuery (by rwa [houtcomes]) (by rwa [houtcomes]) hlen
      (by rw [hrest, List.append_assoc])
  | forwarding hqueries hstrip hserved hwritten hrest =>
    exact .forwarding hqueries hstrip (by rwa [houtcomes]) (by rwa [houtcomes]) (by rw [hrest])
  | resolving hserved hwritten hrest =>
    exact .resolving (by rwa [houtcomes]) (by rwa [houtcomes]) (by rw [hrest])
  | writing hserved hwritten hrest =>
    exact .writing (by rwa [houtcomes]) (by rwa [houtcomes]) (by rw [hrest])
  | ended hends hwritten => exact .ended (by rwa [houtcomes]) (by rwa [houtcomes])
  | short hwritten hshort hrest => exact .short (by rwa [houtcomes]) hshort (by rw [hrest]; rfl)
  | readFailed hfailed hwritten => exact .readFailed (hfailed.snoc _) (by rwa [houtcomes])
  | writeFailed hfailed hwritten => exact .writeFailed (hfailed.snoc _) (by rwa [houtcomes])

theorem Inv.gotLength {hi lo : UInt8} {inbox : Bytes} {table : DnsTable}
    (hinv : Inv stripAaaa acts c) (hphase : c.phase = .readingLength)
    (hinbox : c.inbox = hi :: lo :: inbox) :
    Inv stripAaaa (acts ++ [(.readLength, table)]) (gotLength c hi lo inbox) := by
  have houtcomes : outcomes (acts ++ [(.readLength, table)]) = outcomes acts :=
    outcomes_snoc_of_none rfl
  obtain ⟨hqueries, rest, harrived, hstage⟩ := hinv
  rw [hphase] at hstage
  cases hstage with
  | readingLength hserved hwritten hrest =>
    refine ⟨hqueries, rest, ?_, ?_⟩
    · rw [arrived_snoc, harrived]
      exact List.append_nil _
    · rw [Tcp.gotLength]
      split_ifs with hshort
      · exact .short (by rwa [houtcomes]) hshort (hrest.trans hinbox)
      · have hlen := (u16FromBeBytes hi lo).toNat_lt
        refine .readingQuery (by rwa [houtcomes]) (by rwa [houtcomes])
          ⟨Nat.le_of_not_lt hshort, Nat.le_of_lt_succ hlen⟩ ?_
        rw [hrest, hinbox, UInt16.ofNat_toNat, u16ToBeBytes_u16FromBeBytes]
        rfl

/-- A query that has been read is answered at once or asked upstream. -/
theorem Inv.gotQuery {len : ℕ} {table : DnsTable} (hinv : Inv stripAaaa acts c)
    (hphase : c.phase = .readingQuery len) (hle : len ≤ c.inbox.length) :
    Inv stripAaaa (acts ++ [(.readQuery, table)])
      (gotQuery stripAaaa c (c.inbox.take len) (c.inbox.drop len)) := by
  have houtcomes : outcomes (acts ++ [(.readQuery, table)]) = outcomes acts :=
    outcomes_snoc_of_none rfl
  obtain ⟨hqueries, rest, harrived, hstage⟩ := hinv
  rw [hphase] at hstage
  cases hstage with
  | readingQuery hserved hwritten hlen hrest =>
    have htake : (c.inbox.take len).length = len := List.length_take_of_le hle
    have hframe : frame (c.inbox.take len) ++ c.inbox.drop len = rest := by
      rw [hrest, frame, htake, List.append_assoc, List.take_append_drop]
    have hqueries' : ∀ query ∈ c.queries ++ [c.inbox.take len],
        Framable query ∧ 12 ≤ query.length := by
      intro query hquery
      rcases List.mem_append.mp hquery with hbefore | hlast
      · exact hqueries query hbefore
      · rw [List.mem_singleton.mp hlast, Framable, htake]
        exact ⟨hlen.2, hlen.1⟩
    have harrived' : arrived (acts ++ [(.readQuery, table)]) =
        frames (c.queries ++ [c.inbox.take len]) ++ c.inbox.drop len := by
      rw [arrived_snoc, harrived, frames_append, frames_singleton,
        List.append_assoc (frames c.queries) (frame (c.inbox.take len)), hframe]
      exact List.append_nil _
    generalize hquery : c.inbox.take len = query at hqueries' harrived'
    rw [Tcp.gotQuery]
    split_ifs with hstrip
    · have hserved' : Served stripAaaa (c.queries ++ [query]) (outcomes acts) := by
        simpa using hserved.snoc (served_stripped hstrip)
      have hreplies : replies stripAaaa (c.queries ++ [query]) (outcomes acts) =
          replies stripAaaa c.queries (outcomes acts) ++ (buildNodata query).toList := by
        have hsnoc := hserved.replies_snoc query []
        rwa [List.append_nil, replies_stripped hstrip] at hsnoc
      cases hnodata : buildNodata query with
      | none =>
        refine ⟨hqueries', _, harrived', .readingLength (by rwa [houtcomes]) ?_ rfl⟩
        rw [houtcomes, hreplies, hnodata, Option.toList_none, List.append_nil]
        exact hwritten
      | some resp =>
        refine ⟨hqueries', _, harrived', .writing (by rwa [houtcomes]) ?_ rfl⟩
        rw [houtcomes, hreplies, hnodata, Option.toList_some, frames_append, frames_singleton,
          ← hwritten]
    · exact ⟨hqueries', _, harrived',
        .forwarding rfl hstrip (by rwa [houtcomes]) (by rwa [houtcomes]) rfl⟩

/-- An outcome that is no response to pass on ends the connection. -/
theorem Inv.gotResponse {query : Bytes} {table : DnsTable} (hinv : Inv stripAaaa acts c)
    (hphase : c.phase = .forwarding query) (outcome : Option Bytes) :
    Inv stripAaaa (acts ++ [(.respond outcome, table)]) (gotResponse c query outcome) := by
  have houtcomes : outcomes (acts ++ [(.respond outcome, table)]) = outcomes acts ++ [outcome] :=
    outcomes_snoc acts _
  obtain ⟨hqueries, rest, harrived, hstage⟩ := hinv
  have harrived' : arrived (acts ++ [(.respond outcome, table)]) = frames c.queries ++ rest := by
    rw [arrived_snoc, harrived]
    exact List.append_nil _
  rw [hphase] at hstage
  cases hstage with
  | @forwarding queries _ hsnoc hstrip hserved hwritten hrest =>
    have hends : (∀ response, outcome = some response → ¬ Acceptable response) →
        c.written = frames (replies stripAaaa c.queries (outcomes acts ++ [outcome])) ∧
          Ends stripAaaa c.queries (outcomes acts ++ [outcome]) := by
      intro hnone
      obtain ⟨hsame, hends⟩ := hserved.ends hstrip (fun response rest heq =>
        hnone response (List.cons.inj heq).1)
      rw [hsnoc]
      exact ⟨by rw [hsame, hwritten], hends⟩
    cases outcome with
    | none =>
      obtain ⟨hwritten', hends'⟩ := hends (by simp)
      exact ⟨hqueries, rest, harrived', .ended (by rwa [houtcomes]) (by rwa [houtcomes])⟩
    | some response =>
      rw [Tcp.gotResponse]
      split_ifs with hbad
      · have hnot : ¬ Acceptable response := by
          rw [Acceptable, Framable]
          omega
        obtain ⟨hwritten', hends'⟩ := hends (by simpa using hnot)
        exact ⟨hqueries, rest, harrived', .ended (by rwa [houtcomes]) (by rwa [houtcomes])⟩
      · have hgood : Acceptable response := by
          rw [Acceptable, Framable]
          omega
        have hserved' := hserved.snoc (served_answered hstrip hgood)
        refine ⟨hqueries, rest, harrived', .resolving ?_ ?_ hrest⟩
        · rw [houtcomes, hsnoc]
          exact hserved'
        · have hreplies := hserved.replies_snoc query [some response]
          rw [houtcomes, hsnoc, hreplies, replies_answered hstrip hgood, frames_append,
            frames_singleton, ← hwritten]

/-- An action that is neither an outcome nor an arrival. -/
theorem quiet_snoc {a : Action} {table : DnsTable} (houtcome : a.outcome = none)
    (harrived : a.arrived = []) : outcomes (acts ++ [(a, table)]) = outcomes acts ∧
      arrived (acts ++ [(a, table)]) = arrived acts :=
  ⟨outcomes_snoc_of_none houtcome, by rw [arrived_snoc, harrived, List.append_nil]⟩

theorem Inv.readFail {table : DnsTable} (hinv : Inv stripAaaa acts c)
    (hphase : c.phase = .readingLength ∨ ∃ len, c.phase = .readingQuery len) :
    Inv stripAaaa (acts ++ [(.readFail, table)]) { c with phase := .closed } := by
  obtain ⟨houtcomes, hsame⟩ := @quiet_snoc acts .readFail table rfl rfl
  obtain ⟨hqueries, rest, harrived, hstage⟩ := hinv
  have hfailed : ReadFailed (acts ++ [(.readFail, table)]) :=
    ⟨_, List.mem_append_right _ (List.mem_singleton_self _), rfl⟩
  have hwritten : c.written = frames (replies stripAaaa c.queries (outcomes acts)) := by
    rcases hphase with hphase | ⟨len, hphase⟩
    · rw [hphase] at hstage
      cases hstage with
      | readingLength hserved hwritten hrest => exact hwritten
    · rw [hphase] at hstage
      cases hstage with
      | readingQuery hserved hwritten hlen hrest => exact hwritten
  exact ⟨hqueries, rest, hsame.trans harrived, .readFailed hfailed (by rwa [houtcomes])⟩

theorem Inv.writeFail {table : DnsTable} (hinv : Inv stripAaaa acts c)
    (hphase : (∃ query response, c.phase = .resolving query response []) ∨
      ∃ rest, c.phase = .writing rest) :
    Inv stripAaaa (acts ++ [(.writeFail, table)]) { c with phase := .closed } := by
  obtain ⟨houtcomes, hsame⟩ := @quiet_snoc acts .writeFail table rfl rfl
  obtain ⟨hqueries, rest, harrived, hstage⟩ := hinv
  have hfailed : WriteFailed (acts ++ [(.writeFail, table)]) :=
    ⟨_, List.mem_append_right _ (List.mem_singleton_self _), rfl⟩
  have hwritten : c.written <+: frames (replies stripAaaa c.queries (outcomes acts)) := by
    rcases hphase with ⟨query, response, hphase⟩ | ⟨unwritten, hphase⟩
    · rw [hphase] at hstage
      cases hstage with
      | resolving hserved hwritten hrest => exact ⟨_, hwritten⟩
    · rw [hphase] at hstage
      cases hstage with
      | writing hserved hwritten hrest => exact ⟨_, hwritten⟩
  exact ⟨hqueries, rest, hsame.trans harrived, .writeFailed hfailed (by rwa [houtcomes])⟩

theorem Inv.step (hinv : Inv stripAaaa acts c) (hmove : Move stripAaaa c act.1 c') :
    Inv stripAaaa (acts ++ [act]) c' := by
  obtain ⟨a, table⟩ := act
  cases hmove with
  | arrive data =>
    obtain ⟨hqueries, rest, harrived, hstage⟩ := hinv
    refine ⟨hqueries, rest ++ data, ?_, hstage.arrive⟩
    rw [arrived_snoc, harrived, List.append_assoc]
    rfl
  | readLength hphase hinbox => exact hinv.gotLength hphase hinbox
  | readQuery hphase hlen => exact hinv.gotQuery hphase hlen
  | respond outcome hphase => exact hinv.gotResponse hphase outcome
  | readFail hphase => exact hinv.readFail hphase
  | row hphase =>
    obtain ⟨hqueries, rest, harrived, hstage⟩ := hinv
    rw [hphase] at hstage
    cases hstage with
    | resolving hserved hwritten hrest =>
      obtain ⟨houtcomes, hsame⟩ := @quiet_snoc acts (.row _ _ _) table rfl rfl
      exact ⟨hqueries, rest, hsame.trans harrived,
        .resolving (by rwa [houtcomes]) (by rwa [houtcomes]) hrest⟩
  | writeFirst n hphase =>
    obtain ⟨houtcomes, hsame⟩ := @quiet_snoc acts (.write n) table rfl rfl
    obtain ⟨hqueries, rest, harrived, hstage⟩ := hinv
    rw [hphase] at hstage
    cases hstage with
    | resolving hserved hwritten hrest =>
      refine ⟨hqueries, rest, hsame.trans harrived, .writing (by rwa [houtcomes]) ?_ hrest⟩
      rw [houtcomes, List.append_assoc, List.take_append_drop]
      exact hwritten
  | wrote n hphase =>
    obtain ⟨houtcomes, hsame⟩ := @quiet_snoc acts (.write n) table rfl rfl
    obtain ⟨hqueries, rest, harrived, hstage⟩ := hinv
    rw [hphase] at hstage
    cases hstage with
    | writing hserved hwritten hrest =>
      rw [List.append_nil] at hwritten
      exact ⟨hqueries, rest, hsame.trans harrived,
        .readingLength (by rwa [houtcomes]) (by rwa [houtcomes]) hrest⟩
  | write n hphase =>
    obtain ⟨houtcomes, hsame⟩ := @quiet_snoc acts (.write n) table rfl rfl
    obtain ⟨hqueries, rest, harrived, hstage⟩ := hinv
    rw [hphase] at hstage
    cases hstage with
    | writing hserved hwritten hrest =>
      refine ⟨hqueries, rest, hsame.trans harrived, .writing (by rwa [houtcomes]) ?_ hrest⟩
      rw [houtcomes, List.append_assoc, List.take_append_drop]
      exact hwritten
  | writeFail hphase => exact hinv.writeFail hphase

theorem inv_of_run : ∀ acts c, (system stripAaaa).run acts = some c → Inv stripAaaa acts c :=
  System.run_induction inv_start fun _ _ _ _ _ hinv hstep => hinv.step (move_of_system_step hstep)

def Phase.Settled : Phase → Prop
  | .resolving _ _ _ => False
  | .writing _ => False
  | _ => True

/-- The connection is closed, or has to wait for its client or for the upstream server. -/
def Connection.Waits (c : Connection) : Prop :=
  match c.phase with
  | .readingLength => c.inbox.length < 2
  | .readingQuery len => c.inbox.length < len
  | .forwarding _ => True
  | .closed => True
  | _ => False

theorem readFrame_none_of_length {inbox : Bytes} (h : inbox.length < 2) :
    readFrame inbox = none := by
  match inbox, h with
  | [], _ => rfl
  | [_], _ => rfl

/-- A query that waits for the upstream server has no reply yet. -/
theorem replies_forwarding {queries : List Bytes} {query : Bytes}
    (hqueries : c.queries = queries ++ [query]) (hstrip : ¬ Stripped stripAaaa query)
    (hserved : Served stripAaaa queries (outcomes acts)) :
    replies stripAaaa queries (outcomes acts) = replies stripAaaa c.queries (outcomes acts) ∧
      Ends stripAaaa c.queries (outcomes acts) := by
  have hnone : ∀ response rest, ([] : List (Option Bytes)) = some response :: rest →
      ¬ Acceptable response := by
    simp
  obtain ⟨hsame, hends⟩ := hserved.ends hstrip hnone
  rw [List.append_nil] at hsame hends
  rw [hqueries]
  exact ⟨hsame.symm, hends⟩

theorem Inv.written_settled (hinv : Inv stripAaaa acts c) (hwrite : ¬ WriteFailed acts)
    (hsettled : c.phase.Settled) :
    c.written = frames (replies stripAaaa c.queries (outcomes acts)) := by
  obtain ⟨-, rest, -, hstage⟩ := hinv
  generalize c.phase = phase at hstage hsettled
  cases hstage with
  | readingLength hserved hwritten hrest => exact hwritten
  | readingQuery hserved hwritten hlen hrest => exact hwritten
  | forwarding hqueries hstrip hserved hwritten hrest =>
    rw [hwritten, (replies_forwarding hqueries hstrip hserved).1]
  | resolving hserved hwritten hrest => cases hsettled
  | writing hserved hwritten hrest => cases hsettled
  | ended hends hwritten => exact hwritten
  | short hwritten hshort hrest => exact hwritten
  | readFailed hfailed hwritten => exact hwritten
  | writeFailed hfailed hwritten => exact absurd hfailed hwrite

theorem Inv.written_prefix (hinv : Inv stripAaaa acts c) :
    c.written <+: frames (replies stripAaaa c.queries (outcomes acts)) := by
  obtain ⟨-, rest, -, hstage⟩ := hinv
  generalize c.phase = phase at hstage
  cases hstage with
  | readingLength hserved hwritten hrest => exact ⟨[], by rw [hwritten, List.append_nil]⟩
  | readingQuery hserved hwritten hlen hrest => exact ⟨[], by rw [hwritten, List.append_nil]⟩
  | forwarding hqueries hstrip hserved hwritten hrest =>
    exact ⟨[], by rw [hwritten, (replies_forwarding hqueries hstrip hserved).1, List.append_nil]⟩
  | resolving hserved hwritten hrest => exact ⟨_, hwritten⟩
  | writing hserved hwritten hrest => exact ⟨_, hwritten⟩
  | ended hends hwritten => exact ⟨[], by rw [hwritten, List.append_nil]⟩
  | short hwritten hshort hrest => exact ⟨[], by rw [hwritten, List.append_nil]⟩
  | readFailed hfailed hwritten => exact ⟨[], by rw [hwritten, List.append_nil]⟩
  | writeFailed hfailed hwritten => exact hwritten

theorem Inv.replies_waits (hinv : Inv stripAaaa acts c) (hread : ¬ ReadFailed acts)
    (hwrite : ¬ WriteFailed acts) (hwaits : c.Waits) :
    replies stripAaaa (clientQueries (arrived acts)) (outcomes acts) =
      replies stripAaaa c.queries (outcomes acts) := by
  obtain ⟨hqueries, rest, harrived, hstage⟩ := hinv
  rw [harrived, clientQueries_frames hqueries]
  rw [Connection.Waits] at hwaits
  generalize c.phase = phase at hstage hwaits
  have hnone : readFrame rest = none →
      replies stripAaaa (c.queries ++ clientQueries rest) (outcomes acts) =
        replies stripAaaa c.queries (outcomes acts) := by
    intro hrest
    rw [clientQueries_of_readFrame_none hrest, List.append_nil]
  cases hstage with
  | readingLength hserved hwritten hrest =>
    rw [← hrest] at hwaits
    exact hnone (readFrame_none_of_length hwaits)
  | @readingQuery len hserved hwritten hlen hrest =>
    apply hnone
    have hvalue : (UInt16.ofNat len).toNat = len :=
      UInt16.toNat_ofNat_of_lt' (Nat.lt_succ_of_le hlen.2)
    rw [hrest, u16ToBeBytes, List.cons_append, List.cons_append, List.nil_append, readFrame,
      u16FromBeBytes_u16ToBeBytes, hvalue]
    exact if_neg (Nat.not_le_of_lt hwaits)
  | forwarding hqueries hstrip hserved hwritten hrest =>
    exact (replies_forwarding hqueries hstrip hserved).2 _
  | resolving hserved hwritten hrest => cases hwaits
  | writing hserved hwritten hrest => cases hwaits
  | ended hends hwritten => exact hends _
  | short hwritten hshort hrest =>
    rw [hrest, clientQueries_short hshort, List.append_nil]
  | readFailed hfailed hwritten => exact absurd hfailed hread
  | writeFailed hfailed hwritten => exact absurd hfailed hwrite

theorem Connection.Waits.settled (h : c.Waits) : c.phase.Settled := by
  rw [Connection.Waits] at h
  generalize c.phase = phase at h
  cases phase with
  | readingLength => trivial
  | readingQuery len => trivial
  | forwarding query => trivial
  | resolving query response ips => cases h
  | writing rest => cases h
  | closed => trivial

theorem Inv.framable_forwarding (hinv : Inv stripAaaa acts c) {query : Bytes}
    (hphase : c.phase = .forwarding query) : Framable query := by
  obtain ⟨hframable, rest, -, hstage⟩ := hinv
  rw [hphase] at hstage
  cases hstage with
  | forwarding hqueries hstrip hserved hwritten hrest =>
    exact (hframable query (by simp [hqueries])).1

/-- A query of which all is sent arrives as one frame. -/
theorem readFrames_transmitted {client : HttpRequest → Option HttpResponse} {addr : SocketAddr}
    {query : Bytes} {net : Dialogue.Network} {stream : Bytes} (hquery : Framable query)
    (hdone : .sent .query query ∈
        ((forwardTcpDnsQuery client (.tcp addr) query).run forwardError net 0 stream).trace ∨
      (∀ i < 3, net.fault i = none) ∨ ∃ response,
        ((forwardTcpDnsQuery client (.tcp addr) query).run forwardError net 0 stream).result =
          .ok response) :
    readFrames (transmitted
      ((forwardTcpDnsQuery client (.tcp addr) query).run forwardError net 0 stream).trace) =
        some [query] := by
  obtain ⟨_, hsent⟩ := @transmitted_forward client addr query net stream
  have hall : transmitted
      ((forwardTcpDnsQuery client (.tcp addr) query).run forwardError net 0 stream).trace =
        frame query := by
    rcases hdone with hmem | hfaults | ⟨response, hok⟩
    · exact hsent (.inl hmem)
    · exact hsent (.inr hfaults)
    · have hfaults := (result_forward_iff.mp hok).1
      exact hsent (.inr fun i hi => hfaults i (Nat.lt_of_lt_of_le hi (by decide)))
  rw [hall, ← frames_singleton]
  exact readFrames_frames (by simpa using hquery)

/-- What is written to a client is whole frames, which hold the replies to its queries in
their order. What is sent to the upstream server for one of them is a frame of it, whole if
nothing fails, and its response is what the server has sent in a frame; over HTTPS it is the body
of the request. -/
theorem writes_frames_of_replies (hrun : (system stripAaaa).run acts = some c) :
    c.queries <+: clientQueries (arrived acts) ∧
      (readFrames (frames (replies stripAaaa c.queries (outcomes acts))) =
          some (replies stripAaaa c.queries (outcomes acts)) ∧
        c.written <+: frames (replies stripAaaa c.queries (outcomes acts))) ∧
      (¬ WriteFailed acts → c.phase.Settled →
        readFrames c.written = some (replies stripAaaa c.queries (outcomes acts))) ∧
      (¬ WriteFailed acts → ¬ ReadFailed acts → c.Waits → readFrames c.written =
        some (replies stripAaaa (clientQueries (arrived acts)) (outcomes acts))) ∧
      ∀ query, c.phase = .forwarding query → (∀ url, (dohRequest url query).body = query) ∧
        ∀ client addr net stream,
          let o := (forwardTcpDnsQuery client (.tcp addr) query).run forwardError net 0 stream
          (transmitted o.trace <+: frame query ∧
            (.sent .query query ∈ o.trace ∨ (∀ i < 3, net.fault i = none) ∨
              (∃ response, o.result = .ok response) →
                readFrames (transmitted o.trace) = some [query]) ∧
            ∀ response, o.result = .ok response ↔
              (∀ i < 5, net.fault i = none) ∧ ∃ rest, readFrame stream = some (response, rest)) ∧
          ∀ url response,
            ((forwardTcpDnsQuery client (.doh url) query).run forwardError net 0 stream).result =
                .ok response ↔
              ∃ answer, client (dohRequest url query) = some answer ∧ answer.success = true ∧
                answer.body = some response := by
  have hinv := inv_of_run acts c hrun
  have hframable : ∀ query ∈ c.queries, Framable query := fun query hquery =>
    (hinv.queries query hquery).1
  have hframes := readFrames_frames (@framable_replies stripAaaa _ hframable (outcomes acts))
  have hsettled : ¬ WriteFailed acts → c.phase.Settled →
      readFrames c.written = some (replies stripAaaa c.queries (outcomes acts)) := by
    intro hwrite hphase
    rw [hinv.written_settled hwrite hphase, hframes]
  refine ⟨?_, ⟨hframes, hinv.written_prefix⟩, hsettled, ?_, ?_⟩
  · obtain ⟨hqueries, rest, harrived, -⟩ := hinv
    rw [harrived, clientQueries_frames hqueries]
    exact List.prefix_append _ _
  · intro hwrite hread hwaits
    rw [hinv.replies_waits hread hwrite hwaits]
    exact hsettled hwrite hwaits.settled
  · intro query hphase
    have hquery := hinv.framable_forwarding hphase
    refine ⟨fun url => rfl, fun client addr net stream => ⟨?_, fun url response =>
      result_forward_doh_iff⟩⟩
    exact ⟨(transmitted_forward addr query net stream).1, readFrames_transmitted hquery,
      fun response => result_forward_iff⟩

def sampleQuery : Bytes := List.replicate 12 0

/-- Two queries at once, of which the second one is not answered. -/
def sampleActs : List (Action × DnsTable) :=
  [.arrive (frame sampleQuery ++ frame sampleQuery), .readLength, .readQuery,
    .respond (some (7 :: sampleQuery)), .write 5, .write 100, .write 0, .readLength, .readQuery,
    .respond none].map fun a => (a, ∅)

theorem writes_frames_of_replies_sample :
    ∃ c, (system true).run sampleActs = some c ∧ readFrames c.written = some [7 :: sampleQuery] := by
  have hrun : (system true).run sampleActs = some
      { phase := .closed, inbox := [], written := frame (7 :: sampleQuery)
        queries := [sampleQuery, sampleQuery] } := rfl
  have hwrite : ¬ WriteFailed sampleActs := by
    rintro ⟨act, hmem, hact⟩
    obtain ⟨a, ha, rfl⟩ := List.mem_map.mp hmem
    subst hact
    simp at ha
  obtain ⟨-, -, hsettled, -⟩ := writes_frames_of_replies hrun
  exact ⟨_, hrun, hsettled hwrite trivial⟩

end TransProxy.Dns.Tcp
