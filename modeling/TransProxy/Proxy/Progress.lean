import TransProxy.Proxy.Conservation

/-!
# When the relay can go on

The arms await their writes, and while the task is suspended in one of them neither
the grace timer nor the other direction is polled. A chunk that does not fit into
the buffer of its destination therefore holds up both.
-/
namespace TransProxy.Proxy
open Library Net

/-- The relay acts, without an error: no peer, no clock. -/
def Action.own : Action → Bool
  | .read _ _ | .readEof _ | .write _ | .shutdown | .graceExpired | .close | .finish => true
  | _ => false

def Task.ended : Task → Bool
  | .finished _ _ | .failed _ _ => true
  | _ => false

/-- The relay can close the connection without waiting for a peer. -/
def CanClose (p : Params) (s : State) : Prop :=
  CanReach (step p) (fun act => act.own = true) (fun t => t.task.ended = true) s

/-- The relay can forward bytes of the direction from `src` without waiting for a peer. -/
def CanForward (p : Params) (s : State) (src : Side) : Prop :=
  CanReach (step p) (fun act => act.own = true)
    (fun t => (s.ends src.other).written.length < (t.ends src.other).written.length) s

/-- Suspended in `write_all` of more bytes from `src` than the destination has room for. -/
def Blocked (s : State) (src : Side) : Prop :=
  ∃ chunk rest, s.task = .writing src chunk rest ∧ (s.ends src.other).room < rest.length

section Blocked
variable {p : Params} {s t : State}

theorem room_write (e : Endpoint) (data : Bytes) : (e.write data).room = e.room - data.length := by
  simp [Endpoint.room, Endpoint.write, Nat.sub_sub]

/-- Its own steps do not get a blocked relay any further, and they leave the other
direction alone. -/
theorem Blocked.step {src : Side} (hs : Blocked s src) {act : Action} (hown : act.own = true)
    (h : step p s act = some t) : Blocked t src ∧ t.ends src = s.ends src := by
  obtain ⟨chunk, rest, htask, hroom⟩ := hs
  cases act with
  | read side n => have := (step_read_iff.mp h).1; simp [htask] at this
  | readEof side => have := (step_readEof_iff.mp h).1; simp [htask] at this
  | write n =>
    obtain ⟨src', chunk', rest', htask', ⟨_, _, hn⟩, rfl⟩ := step_write_iff.mp h
    obtain ⟨rfl, rfl, rfl⟩ := Task.writing.inj (htask.symm.trans htask')
    refine ⟨⟨chunk, rest.drop n, ?_, ?_⟩, by simp⟩
    · rw [writeSome_task, if_neg (by omega)]
    · simp only [writeSome_ends, update_self, room_write, List.length_take, List.length_drop]
      omega
  | shutdown => obtain ⟨_, htask', _⟩ := step_shutdown_iff.mp h; simp [htask] at htask'
  | graceExpired => obtain ⟨_, htask', _⟩ := step_graceExpired_iff.mp h; simp [htask] at htask'
  | close => obtain ⟨_, htask', _⟩ := step_close_iff.mp h; simp [htask] at htask'
  | finish => have := (step_finish_iff.mp h).1; simp [htask] at this
  | readError side => cases hown
  | writeError => cases hown
  | peerSend side data => cases hown
  | peerFin side => cases hown
  | peerAccept side n => cases hown
  | tick d => cases hown

theorem Blocked.not_canClose {src : Side} (hs : Blocked s src) : ¬ CanClose p s := by
  refine not_canReach_of_invariant (I := fun s => Blocked s src)
    (fun _ _ _ hI hown hstep => (hI.step hown hstep).1) ?_ hs
  rintro s ⟨chunk, rest, htask, _⟩
  simp [htask, Task.ended]

theorem Blocked.not_canForward {src : Side} (hs : Blocked s src.other) : ¬ CanForward p s src := by
  refine not_canReach_of_invariant
    (I := fun t => Blocked t src.other ∧ t.ends src.other = s.ends src.other) ?_ ?_ ⟨hs, rfl⟩
  · intro t act u ⟨hblocked, hends⟩ hown hstep
    obtain ⟨hblocked', hends'⟩ := hblocked.step hown hstep
    exact ⟨hblocked', hends'.trans hends⟩
  · intro t ⟨_, hends⟩
    simp [hends]

end Blocked

theorem writeSome_all (s : State) (src : Side) (chunk rest : Bytes) :
    s.writeSome src chunk rest rest.length =
      { s with
        task := .selecting
        ends := s.update src.other (·.write rest)
        bytes := Function.update s.bytes src (s.bytes src + UInt64.ofNat chunk.length) } := by
  simp [State.writeSome]

/-- The rest of a chunk that fits is written at once. -/
theorem step_write_all {p : Params} {s : State} (hs : Inv p s) {src : Side} {chunk rest : Bytes}
    (htask : s.task = .writing src chunk rest) (hfits : ¬ Blocked s src) :
    step p s (.write rest.length) = some (s.writeSome src chunk rest rest.length) := by
  have hroom : rest.length ≤ (s.ends src.other).room :=
    Nat.le_of_not_lt (fun h => hfits ⟨chunk, rest, htask, h⟩)
  have hpos := List.length_pos_iff.mpr (hs.writing src chunk rest htask).2.1
  exact step_write_iff.mpr ⟨src, chunk, rest, htask, ⟨hpos, Nat.le_refl _, hroom⟩, rfl⟩

def GraceOver (s : State) : Prop :=
  (∃ side, s.eof side = true) ∧ ∃ deadline, s.graceTimer = some deadline ∧ deadline ≤ s.now

section Close
variable {p : Params} {s : State} {deadline : Instant}

theorem canClose_of_selecting (htask : s.task = .selecting) (htimer : s.graceTimer = some deadline)
    (hpassed : deadline ≤ s.now) : CanClose p s := by
  by_cases heof : s.eof .client = true ∧ s.eof .server = true
  · exact .next .finish rfl (step_finish_iff.mpr ⟨htask, heof, rfl⟩) (.here rfl)
  · refine .next .graceExpired rfl
      (step_graceExpired_iff.mpr ⟨deadline, htask, htimer, ⟨hpassed, heof⟩, rfl⟩) ?_
    refine .next .close rfl (step_close_iff.mpr ⟨.client, rfl, rfl⟩) ?_
    refine .next .close rfl (step_close_iff.mpr ⟨.server, rfl, rfl⟩) ?_
    refine .next .finish rfl (step_finish_iff.mpr ⟨rfl, ?_, rfl⟩) (.here rfl)
    simp [State.closeOne]

/-- The arm of the grace timer runs to the head of the loop. -/
theorem canClose_of_closing {src : Side} (htask : s.task = .closing src)
    (htimer : s.graceTimer = some deadline) (hpassed : deadline ≤ s.now) : CanClose p s := by
  refine .next .close rfl (step_close_iff.mpr ⟨src, htask, rfl⟩) ?_
  cases src with
  | server => exact canClose_of_selecting rfl htimer hpassed
  | client =>
    refine .next .close rfl (step_close_iff.mpr ⟨.server, rfl, rfl⟩) ?_
    exact canClose_of_selecting rfl htimer hpassed

/-- After the grace period the relay can close the connection exactly when it is not
suspended in a write that does not fit. -/
theorem canClose_iff (client server : Socket) (now : Instant) (acts : List Action)
    (hrun : (system p client server now).run acts = some s) (hover : GraceOver s) :
    CanClose p s ↔ ∀ src, ¬ Blocked s src := by
  obtain ⟨_, deadline, htimer, hpassed⟩ := hover
  constructor
  · intro hclose src hblocked
    exact hblocked.not_canClose hclose
  · intro hfree
    cases htask : s.task with
    | selecting => exact canClose_of_selecting htask htimer hpassed
    | writing src chunk rest =>
      refine .next (.write rest.length) rfl
        (step_write_all (inv_of_run hrun) htask (hfree src)) ?_
      rw [writeSome_all]
      exact canClose_of_selecting rfl htimer hpassed
    | shutting dst =>
      refine .next .shutdown rfl (step_shutdown_iff.mpr ⟨dst, htask, rfl⟩) ?_
      exact canClose_of_selecting rfl htimer hpassed
    | closing src => exact canClose_of_closing htask htimer hpassed
    | finished c d => exact .here (by simp [htask, Task.ended])
    | failed src rest => exact .here (by simp [htask, Task.ended])

end Close

section Forward
variable {p : Params} {s : State} {src : Side}

theorem CanForward.next {t : State} {act : Action} (hown : act.own = true)
    (hstep : step p s act = some t)
    (hwritten : (t.ends src.other).written = (s.ends src.other).written)
    (h : CanForward p t src) : CanForward p s src :=
  CanReach.next act hown hstep (h.mono (fun _ hu => hwritten ▸ hu))

theorem canForward_of_writing {chunk rest : Bytes} (htask : s.task = .writing src chunk rest)
    (hrest : rest ≠ []) (hroom : 0 < (s.ends src.other).room) : CanForward p s src := by
  have hpos := List.length_pos_iff.mpr hrest
  refine CanReach.next (.write 1) rfl
    (step_write_iff.mpr ⟨src, chunk, rest, htask, ⟨Nat.one_pos, hpos, hroom⟩, rfl⟩) (.here ?_)
  simp only [writeSome_ends, update_self, Endpoint.write, List.length_append, List.length_take]
  omega

/-- At the `select!` the arm of the direction can be taken. -/
theorem canForward_of_selecting (hs : Inv p s) (htask : s.task = .selecting)
    (hfired : s.graceFired = false) (hreadable : (s.ends src).incoming ≠ [])
    (hroom : 0 < (s.ends src.other).room) : CanForward p s src := by
  have hopen : s.eof src = false := by
    by_contra heof
    exact hreadable (hs.drained hfired src (by simpa using heof)).1
  have hpos := List.length_pos_iff.mpr hreadable
  have hstep : step p s (.read src 1) = some (s.readChunk src 1) :=
    step_read_iff.mpr ⟨htask, ⟨hopen, Nat.one_pos, p.bufSize_pos, hpos⟩, rfl⟩
  refine CanForward.next rfl hstep (by simp [State.readChunk]) ?_
  apply canForward_of_writing rfl
  · simpa [List.take_eq_nil_iff] using hreadable
  · simpa [State.readChunk] using hroom

/-- Once the grace timer has fired the task goes through its arm to the end. -/
def ClosesAfterGrace (s : State) : Prop :=
  s.graceFired = true → s.task = .closing .client ∨
    (s.task = .closing .server ∧ s.eof .client = true) ∨
    (s.task = .selecting ∧ ∀ side, s.eof side = true) ∨ s.task.ended = true

theorem ClosesAfterGrace.step {t : State} {act : Action} (hs : ClosesAfterGrace s)
    (h : step p s act = some t) : ClosesAfterGrace t := by
  have hselecting : s.task = .selecting → s.graceFired = true → ∀ side, s.eof side = true := by
    intro htask hfired
    rcases hs hfired with h' | ⟨h', _⟩ | ⟨_, h'⟩ | h'
    · simp [htask] at h'
    · simp [htask] at h'
    · exact h'
    · simp [htask, Task.ended] at h'
  cases act with
  | read side n =>
    obtain ⟨htask, ⟨hopen, _⟩, rfl⟩ := step_read_iff.mp h
    intro hfired
    simp [hselecting htask hfired side] at hopen
  | readEof side =>
    obtain ⟨htask, ⟨hopen, _⟩, rfl⟩ := step_readEof_iff.mp h
    intro hfired
    simp [hselecting htask hfired side] at hopen
  | readError side =>
    obtain ⟨htask, hopen, rfl⟩ := step_readError_iff.mp h
    intro hfired
    simp [hselecting htask hfired side] at hopen
  | write n =>
    obtain ⟨side, chunk, rest, htask, _, rfl⟩ := step_write_iff.mp h
    intro hfired
    simpa [htask, Task.ended] using hs (by simpa using hfired)
  | writeError =>
    obtain ⟨side, chunk, rest, htask, rfl⟩ := step_writeError_iff.mp h
    exact fun _ => .inr (.inr (.inr rfl))
  | shutdown =>
    obtain ⟨dst, htask, rfl⟩ := step_shutdown_iff.mp h
    intro hfired
    simpa [htask, Task.ended] using hs hfired
  | graceExpired =>
    obtain ⟨deadline, htask, _, _, rfl⟩ := step_graceExpired_iff.mp h
    exact fun _ => .inl rfl
  | close =>
    obtain ⟨side, htask, rfl⟩ := step_close_iff.mp h
    intro hfired
    cases side with
    | client => exact .inr (.inl ⟨rfl, by simp [State.closeOne]⟩)
    | server =>
      have hclient : s.eof .client = true := by
        simpa [htask, Task.ended] using hs hfired
      refine .inr (.inr (.inl ⟨rfl, fun side => ?_⟩))
      cases side <;> simp [State.closeOne, hclient]
  | finish =>
    obtain ⟨_, _, rfl⟩ := step_finish_iff.mp h
    exact fun _ => .inr (.inr (.inr rfl))
  | peerSend side data => obtain ⟨_, rfl⟩ := step_peerSend_iff.mp h; exact hs
  | peerFin side => obtain rfl := Option.some.inj h; exact hs
  | peerAccept side n => obtain rfl := Option.some.inj h; exact hs
  | tick d => obtain rfl := Option.some.inj h; exact hs

def Stopped (s : State) : Prop := s.task.ended = true ∨ s.graceFired = true

theorem Stopped.not_writing (hs : Stopped s) (hclose : ClosesAfterGrace s) (side : Side)
    (chunk rest : Bytes) : s.task ≠ .writing side chunk rest := by
  intro htask
  rcases hs with h | h
  · simp [htask, Task.ended] at h
  · simpa [htask, Task.ended] using hclose h

/-- A stopped relay stays stopped. -/
theorem Stopped.step {t : State} {act : Action} (hs : Stopped s) (h : step p s act = some t) :
    Stopped t := by
  cases act with
  | read side n =>
    obtain ⟨htask, _, rfl⟩ := step_read_iff.mp h
    exact hs.imp (by simp [htask, Task.ended]) id
  | readEof side =>
    obtain ⟨htask, _, rfl⟩ := step_readEof_iff.mp h
    exact hs.imp (by simp [htask, Task.ended]) id
  | readError side => obtain ⟨_, _, rfl⟩ := step_readError_iff.mp h; exact .inl rfl
  | write n =>
    obtain ⟨side, chunk, rest, htask, _, rfl⟩ := step_write_iff.mp h
    exact hs.imp (by simp [htask, Task.ended]) (by simp)
  | writeError => obtain ⟨_, _, _, _, rfl⟩ := step_writeError_iff.mp h; exact .inl rfl
  | shutdown =>
    obtain ⟨dst, htask, rfl⟩ := step_shutdown_iff.mp h
    exact hs.imp (by simp [htask, Task.ended]) id
  | graceExpired => obtain ⟨_, _, _, _, rfl⟩ := step_graceExpired_iff.mp h; exact .inr rfl
  | close =>
    obtain ⟨side, htask, rfl⟩ := step_close_iff.mp h
    exact hs.imp (by simp [htask, Task.ended]) id
  | finish => obtain ⟨_, _, rfl⟩ := step_finish_iff.mp h; exact .inl rfl
  | peerSend side data => obtain ⟨_, rfl⟩ := step_peerSend_iff.mp h; exact hs
  | peerFin side => obtain rfl := Option.some.inj h; exact hs
  | peerAccept side n => obtain rfl := Option.some.inj h; exact hs
  | tick d => obtain rfl := Option.some.inj h; exact hs

theorem Stopped.not_canForward (hs : Stopped s) (hclose : ClosesAfterGrace s) :
    ¬ CanForward p s src := by
  refine not_canReach_of_invariant (I := fun t => Stopped t ∧ ClosesAfterGrace t ∧
    (t.ends src.other).written = (s.ends src.other).written) ?_ ?_ ⟨hs, hclose, rfl⟩
  · intro t act u ⟨hstopped, hcloses, hwritten⟩ _ hstep
    refine ⟨hstopped.step hstep, hcloses.step hstep, ?_⟩
    by_contra hne
    obtain ⟨chunk, rest, htask⟩ := write_of_written_ne hstep (fun h => hne (h.trans hwritten))
    exact hstopped.not_writing hcloses _ _ _ htask
  · intro t ⟨_, _, hwritten⟩
    simp [hwritten]

/-- Bytes that can be read and written are forwarded without waiting for a peer exactly
when the relay has not returned, its grace timer has not fired, and the task is not
suspended in a write of the other direction that does not fit. -/
theorem canForward_iff (client server : Socket) (now : Instant) (acts : List Action)
    (hrun : (system p client server now).run acts = some s)
    (hreadable : (s.ends src).incoming ≠ []) (hroom : 0 < (s.ends src.other).room) :
    CanForward p s src ↔
      s.task.ended = false ∧ s.graceFired = false ∧ ¬ Blocked s src.other := by
  have hs := inv_of_run hrun
  have hclose : ClosesAfterGrace s :=
    System.Reachable.invariant (S := system p client server now) (I := ClosesAfterGrace)
      (fun h => by cases h) (fun _ _ _ hI hstep => hI.step hstep) ⟨acts, hrun⟩
  constructor
  · intro hforward
    have hlive : ¬ Stopped s := fun hstopped => hstopped.not_canForward hclose hforward
    refine ⟨?_, ?_, fun hblocked => hblocked.not_canForward hforward⟩
    · simpa using fun h => hlive (.inl h)
    · simpa using fun h => hlive (.inr h)
  · rintro ⟨hlive, hfired, hfree⟩
    cases htask : s.task with
    | selecting => exact canForward_of_selecting hs htask hfired hreadable hroom
    | writing src' chunk rest =>
      rcases Side.eq_or_eq_other src' src with rfl | rfl
      · exact canForward_of_writing htask (hs.writing _ _ _ htask).2.1 hroom
      · have hstep := step_write_all hs htask hfree
        refine CanForward.next rfl hstep (by simp) ?_
        apply canForward_of_selecting (hs.step hstep)
        · rw [writeSome_all]
        · simpa using hfired
        · simpa [Endpoint.write] using hreadable
        · simpa using hroom
    | shutting dst =>
      have hstep := step_shutdown_iff (p := p).mpr ⟨dst, htask, rfl⟩
      refine CanForward.next rfl hstep (update_written s dst Endpoint.shutdown rfl _) ?_
      apply canForward_of_selecting (hs.step hstep) rfl hfired
      · rcases Side.eq_or_eq_other src dst with rfl | rfl
        · simpa [Endpoint.shutdown] using hreadable
        · simpa using hreadable
      · rcases Side.eq_or_eq_other src dst with rfl | rfl
        · simpa using hroom
        · simpa [Endpoint.shutdown, Endpoint.room] using hroom
    | closing side =>
      rw [hs.closing side htask] at hfired
      cases hfired
    | finished c d => simp [htask, Task.ended] at hlive
    | failed side rest => simp [htask, Task.ended] at hlive

end Forward

/-- The client has closed its side and has room for one byte, the server sends two; the
grace period passes while the second one is being written. -/
def graceActions : List Action :=
  [.readEof .client, .shutdown, .read .server 2, .write 1, .tick 50]

/-- The grace period is over and the relay waits for the client to accept a byte. -/
theorem not_canClose_unread : ∃ s,
    (system sampleParams (sampleSocket [] true 1) (sampleSocket [1, 2] false 8) 0).run
      graceActions = some s ∧ GraceOver s ∧ ¬ CanClose sampleParams s := by
  have hrun : ((system sampleParams (sampleSocket [] true 1) (sampleSocket [1, 2] false 8) 0).run
      graceActions).map (fun s => (s.task, s.eof .client, s.graceTimer, s.now,
        (s.ends .client).room)) = some (.writing .server [1, 2] [2], true, some 50, 50, 0) := by
    decide
  obtain ⟨s, hs, hfields⟩ := Option.map_eq_some_iff.mp hrun
  simp only [Prod.mk.injEq] at hfields
  obtain ⟨htask, heof, htimer, hnow, hroom⟩ := hfields
  have hblocked : Blocked s .server := ⟨[1, 2], [2], htask, by simp [Side.other, hroom]⟩
  exact ⟨s, hs, ⟨⟨.client, heof⟩, 50, htimer, Nat.le_of_eq hnow.symm⟩, hblocked.not_canClose⟩

/-- With room for both bytes the same relay can close. -/
theorem canClose_iff_sample : ∃ s,
    (system sampleParams (sampleSocket [] true 2) (sampleSocket [1, 2] false 8) 0).run
      graceActions = some s ∧ CanClose sampleParams s := by
  have hrun : ((system sampleParams (sampleSocket [] true 2) (sampleSocket [1, 2] false 8) 0).run
      graceActions).map (fun s => (s.task, s.eof .client, s.graceTimer, s.now,
        (s.ends .client).room)) = some (.writing .server [1, 2] [2], true, some 50, 50, 1) := by
    decide
  obtain ⟨s, hs, hfields⟩ := Option.map_eq_some_iff.mp hrun
  simp only [Prod.mk.injEq] at hfields
  obtain ⟨htask, heof, htimer, hnow, hroom⟩ := hfields
  refine ⟨s, hs, (canClose_iff _ _ 0 _ hs
    ⟨⟨.client, heof⟩, 50, htimer, Nat.le_of_eq hnow.symm⟩).mpr ?_⟩
  rintro src ⟨chunk, rest, htask', hfull⟩
  obtain ⟨rfl, rfl, rfl⟩ := Task.writing.inj (htask.symm.trans htask')
  simp [Side.other, hroom] at hfull

/-- The server sends two bytes to a client that has sent one; the relay starts with the
answer. -/
def crossingActions : List Action := [.read .server 2, .write 1]

/-- The byte of the client could be read and the server has room for it, but the relay
waits for the client to accept the second byte of the answer. -/
theorem not_canForward_unread : ∃ s,
    (system sampleParams (sampleSocket [9] false 1) (sampleSocket [1, 2] false 8) 0).run
      crossingActions = some s ∧ s.task.ended = false ∧ s.graceFired = false ∧
      (s.ends .client).incoming = [9] ∧ (s.ends .server).room = 8 ∧
      ¬ CanForward sampleParams s .client := by
  have hrun : ((system sampleParams (sampleSocket [9] false 1) (sampleSocket [1, 2] false 8)
      0).run crossingActions).map (fun s => (s.task, s.graceFired, (s.ends .client).incoming,
        (s.ends .server).room, (s.ends .client).room)) =
          some (.writing .server [1, 2] [2], false, [9], 8, 0) := by
    decide
  obtain ⟨s, hs, hfields⟩ := Option.map_eq_some_iff.mp hrun
  simp only [Prod.mk.injEq] at hfields
  obtain ⟨htask, hfired, hreadable, hserver, hroom⟩ := hfields
  have hblocked : Blocked s .server := ⟨[1, 2], [2], htask, by simp [Side.other, hroom]⟩
  exact ⟨s, hs, by rw [htask]; rfl, hfired, hreadable, hserver, hblocked.not_canForward⟩

/-- With room for both bytes the byte of the client is forwarded. -/
theorem canForward_iff_sample : ∃ s,
    (system sampleParams (sampleSocket [9] false 2) (sampleSocket [1, 2] false 8) 0).run
      crossingActions = some s ∧ CanForward sampleParams s .client := by
  have hrun : ((system sampleParams (sampleSocket [9] false 2) (sampleSocket [1, 2] false 8)
      0).run crossingActions).map (fun s => (s.task, s.graceFired, (s.ends .client).incoming,
        (s.ends .server).room, (s.ends .client).room)) =
          some (.writing .server [1, 2] [2], false, [9], 8, 1) := by
    decide
  obtain ⟨s, hs, hfields⟩ := Option.map_eq_some_iff.mp hrun
  simp only [Prod.mk.injEq] at hfields
  obtain ⟨htask, hfired, hreadable, hserver, hroom⟩ := hfields
  refine ⟨s, hs, (canForward_iff _ _ 0 _ hs (by simp [hreadable])
    (by simp [Side.other, hserver])).mpr ⟨by rw [htask]; rfl, hfired, ?_⟩⟩
  rintro ⟨chunk, rest, htask', hfull⟩
  obtain ⟨_, rfl, rfl⟩ := Task.writing.inj (htask.symm.trans htask')
  simp [Side.other, hroom] at hfull

end TransProxy.Proxy
