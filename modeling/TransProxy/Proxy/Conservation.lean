import TransProxy.Proxy.Relay

/-!
# The relay forwards what it reads

The invariant holds at every await: each direction has forwarded what it has read
but for the rest of the one chunk in hand.
-/
namespace TransProxy.Proxy
open Library Net

def Task.rest : Task → Side → Bytes
  | .writing src _ rest, side => if side = src then rest else []
  | .failed src rest, side => if side = src then rest else []
  | _, _ => []

/-- The chunk from a side that is not counted yet. -/
def Task.chunk : Task → Side → Bytes
  | .writing src chunk _, side => if side = src then chunk else []
  | _, _ => []

structure Inv (p : Params) (s : State) : Prop where
  received : ∀ side, (s.ends side).sent = (s.ends side).taken ++ (s.ends side).incoming
  forwarded : ∀ src, (s.ends src).taken = (s.ends src.other).written ++ s.task.rest src
  oneChunk : ∀ src, (s.task.rest src).length ≤ p.bufSize
  /-- A direction is written only before its EOF. -/
  writing : ∀ src chunk rest, s.task = .writing src chunk rest →
    s.eof src = false ∧ rest ≠ [] ∧ rest <:+ chunk
  counted : (∃ src rest, s.task = .failed src rest) ∨ ∀ src, ∃ before,
    (s.ends src).taken = before ++ s.task.chunk src ∧ s.bytes src = UInt64.ofNat before.length
  /-- A write half is shut down only after the EOF of the other side. -/
  shutEof : ∀ src, (s.ends src.other).shut = true → s.eof src = true
  shutting : ∀ src, s.task = .shutting src.other → s.eof src = true
  closing : ∀ src, s.task = .closing src → s.graceFired = true
  /-- Without the grace timer an EOF is the end of the stream. -/
  drained : s.graceFired = false → ∀ src, s.eof src = true →
    (s.ends src).incoming = [] ∧ (s.ends src).fin = true
  finished : ∀ c d, s.task = .finished c d →
    (∀ src, s.eof src = true) ∧ c = s.bytes .client ∧ d = s.bytes .server

theorem inv_initial (p : Params) (client server : Socket) (now : Instant) :
    Inv p (initial client server now) where
  received side := by cases side <;> rfl
  forwarded src := by cases src <;> rfl
  oneChunk src := Nat.zero_le _
  writing _ _ _ h := by cases h
  counted := .inr (fun src => ⟨[], by cases src <;> rfl, rfl⟩)
  shutEof src h := by cases src <;> cases h
  shutting _ h := by cases h
  closing _ h := by cases h
  drained _ _ h := by cases h
  finished _ _ h := by cases h

@[simp] theorem update_self (s : State) (side : Side) (f : Endpoint → Endpoint) :
    s.update side f side = f (s.ends side) := by simp [State.update]

@[simp] theorem update_other (s : State) (side : Side) (f : Endpoint → Endpoint) :
    s.update side f side.other = s.ends side.other := by simp [State.update]

@[simp] theorem update_other_left (s : State) (side : Side) (f : Endpoint → Endpoint) :
    s.update side.other f side = s.ends side := by simp [State.update]

section Preservation
variable {p : Params} {s : State}

theorem Inv.readChunk (hs : Inv p s) {src : Side} {n : ℕ} (htask : s.task = .selecting)
    (hopen : s.eof src = false) (hpos : 0 < n) (hbuf : n ≤ p.bufSize)
    (hn : n ≤ (s.ends src).incoming.length) : Inv p (s.readChunk src n) where
  received x := by
    rcases Side.eq_or_eq_other x src with rfl | rfl
    · simp [State.readChunk, Endpoint.read, hs.received x]
    · simp [State.readChunk, hs.received src.other]
  forwarded x := by
    have h := hs.forwarded x
    rw [htask] at h
    rcases Side.eq_or_eq_other x src with rfl | rfl
    · simpa [State.readChunk, Endpoint.read, Task.rest] using h
    · simpa [State.readChunk, Endpoint.read, Task.rest] using h
  oneChunk x := by
    by_cases hx : x = src
    · simp only [State.readChunk, Task.rest, hx, if_true, List.length_take]
      omega
    · simp [State.readChunk, Task.rest, hx]
  writing src' chunk rest h := by
    obtain ⟨rfl, rfl, rfl⟩ := by simpa [State.readChunk] using h
    refine ⟨hopen, fun hnil => ?_, List.suffix_rfl⟩
    rcases List.take_eq_nil_iff.mp hnil with rfl | hempty
    · exact absurd hpos (Nat.lt_irrefl 0)
    · rw [hempty] at hn
      exact absurd (Nat.lt_of_lt_of_le hpos hn) (Nat.lt_irrefl 0)
  counted := by
    right
    intro x
    obtain ⟨_, _, hfail⟩ | hcount := hs.counted
    · rw [htask] at hfail
      cases hfail
    obtain ⟨before, htaken, hbytes⟩ := hcount x
    refine ⟨before, ?_, hbytes⟩
    rw [htask] at htaken
    rcases Side.eq_or_eq_other x src with rfl | rfl
    · simpa [State.readChunk, Endpoint.read, Task.chunk] using htaken
    · simpa [State.readChunk, Endpoint.read, Task.chunk] using htaken
  shutEof x h := by
    apply hs.shutEof x
    rcases Side.eq_or_eq_other x src with rfl | rfl
    · simpa [State.readChunk] using h
    · simpa [State.readChunk, Endpoint.read] using h
  shutting x h := by cases h
  closing x h := by cases h
  drained hfired x heof := by
    have h := hs.drained hfired x heof
    rcases Side.eq_or_eq_other x src with rfl | rfl
    · rw [show s.eof x = true from heof] at hopen
      cases hopen
    · simpa [State.readChunk] using h
  finished c d h := by cases h

theorem Inv.readEof (hs : Inv p s) {src : Side} (htask : s.task = .selecting)
    (hempty : (s.ends src).incoming = []) (hfin : (s.ends src).fin = true) :
    Inv p (s.readEof p src) where
  received x := hs.received x
  forwarded x := by simpa [htask, State.readEof, Task.rest] using hs.forwarded x
  oneChunk x := Nat.zero_le _
  writing _ _ _ h := by cases h
  counted := by simpa [htask, State.readEof, Task.chunk] using hs.counted
  shutEof x h := by
    rcases Side.eq_or_eq_other x src with rfl | rfl
    · simp [State.readEof]
    · simpa [State.readEof] using hs.shutEof src.other h
  shutting x h := by
    obtain rfl : src = x := by
      have hother : src.other = x.other := by simpa [State.readEof] using h
      simpa using congrArg Side.other hother
    simp [State.readEof]
  closing _ h := by cases h
  drained hfired x heof := by
    rcases Side.eq_or_eq_other x src with rfl | rfl
    · exact ⟨hempty, hfin⟩
    · exact hs.drained hfired src.other (by simpa [State.readEof] using heof)
  finished _ _ h := by cases h

@[simp] theorem writeSome_ends (src : Side) (chunk rest : Bytes) (n : ℕ) :
    (s.writeSome src chunk rest n).ends = s.update src.other (·.write (rest.take n)) := by
  unfold State.writeSome
  split <;> rfl

@[simp] theorem writeSome_eof (src : Side) (chunk rest : Bytes) (n : ℕ) :
    (s.writeSome src chunk rest n).eof = s.eof := by
  unfold State.writeSome
  split <;> rfl

@[simp] theorem writeSome_graceFired (src : Side) (chunk rest : Bytes) (n : ℕ) :
    (s.writeSome src chunk rest n).graceFired = s.graceFired := by
  unfold State.writeSome
  split <;> rfl

theorem writeSome_task (src : Side) (chunk rest : Bytes) (n : ℕ) :
    (s.writeSome src chunk rest n).task =
      if rest.length ≤ n then .selecting else .writing src chunk (rest.drop n) := by
  unfold State.writeSome
  split <;> rfl

theorem writeSome_bytes (src : Side) (chunk rest : Bytes) (n : ℕ) :
    (s.writeSome src chunk rest n).bytes =
      if rest.length ≤ n then Function.update s.bytes src (s.bytes src + UInt64.ofNat chunk.length)
      else s.bytes := by
  unfold State.writeSome
  split <;> rfl

/-- One write takes its bytes off the front of what is left. -/
theorem rest_writeSome (src : Side) (chunk rest : Bytes) (n : ℕ) (x : Side) :
    (s.writeSome src chunk rest n).task.rest x = if x = src then rest.drop n else [] := by
  rw [writeSome_task]
  by_cases hlast : rest.length ≤ n
  · simp [hlast, Task.rest, List.drop_eq_nil_of_le hlast]
  · simp [hlast, Task.rest]

theorem Inv.writeSome (hs : Inv p s) {src : Side} {chunk rest : Bytes} {n : ℕ}
    (htask : s.task = .writing src chunk rest) :
    Inv p (s.writeSome src chunk rest n) := by
  obtain ⟨hopen, _, hsuffix⟩ := hs.writing src chunk rest htask
  constructor
  · intro x
    rcases Side.eq_or_eq_other x src with rfl | rfl
    · simpa using hs.received x
    · simpa [Endpoint.write] using hs.received src.other
  · intro x
    have h := hs.forwarded x
    rw [rest_writeSome]
    rw [htask] at h
    rcases Side.eq_or_eq_other x src with rfl | rfl
    · simpa [Endpoint.write, Task.rest] using h
    · simpa [Endpoint.write, Task.rest] using h
  · intro x
    have h := hs.oneChunk src
    rw [rest_writeSome]
    rw [htask] at h
    by_cases hx : x = src
    · simp only [hx, Task.rest, if_true, List.length_drop] at h ⊢
      omega
    · simp [hx]
  · intro src' chunk' rest' h
    rw [writeSome_task] at h
    split_ifs at h with hlast
    obtain ⟨rfl, rfl, rfl⟩ := Task.writing.inj h
    exact ⟨by simpa using hopen, fun hnil => hlast (List.drop_eq_nil_iff.mp hnil),
      (List.drop_suffix n rest).trans hsuffix⟩
  · right
    intro x
    obtain ⟨_, _, hfail⟩ | hcount := hs.counted
    · rw [htask] at hfail
      cases hfail
    obtain ⟨before, htaken, hbytes⟩ := hcount x
    rw [htask] at htaken
    rw [writeSome_task, writeSome_bytes]
    by_cases hlast : rest.length ≤ n
    · rw [if_pos hlast, if_pos hlast]
      rcases Side.eq_or_eq_other x src with rfl | rfl
      · -- the whole chunk is behind the counter now
        exact ⟨before ++ chunk, by simpa [Task.chunk] using htaken, by simp [hbytes]⟩
      · exact ⟨before, by simpa [Endpoint.write, Task.chunk] using htaken, by simpa using hbytes⟩
    · rw [if_neg hlast, if_neg hlast]
      refine ⟨before, ?_, hbytes⟩
      rcases Side.eq_or_eq_other x src with rfl | rfl
      · simpa [Task.chunk] using htaken
      · simpa [Endpoint.write, Task.chunk] using htaken
  · intro x h
    rw [writeSome_eof]
    apply hs.shutEof x
    rcases Side.eq_or_eq_other x src with rfl | rfl
    · simpa [Endpoint.write] using h
    · simpa using h
  · intro x h
    rw [writeSome_task] at h
    split_ifs at h
  · intro x h
    rw [writeSome_task] at h
    split_ifs at h
  · intro hfired x heof
    rw [writeSome_graceFired] at hfired
    rw [writeSome_eof] at heof
    have h := hs.drained hfired x heof
    rcases Side.eq_or_eq_other x src with rfl | rfl
    · simpa using h
    · simpa [Endpoint.write] using h
  · intro c d h
    rw [writeSome_task] at h
    split_ifs at h

theorem Inv.shutdown (hs : Inv p s) {dst : Side} (htask : s.task = .shutting dst) :
    Inv p { s with task := .selecting, ends := s.update dst Endpoint.shutdown } where
  received x := by
    rcases Side.eq_or_eq_other x dst with rfl | rfl
    · simpa [Endpoint.shutdown] using hs.received x
    · simpa using hs.received dst.other
  forwarded x := by
    have h := hs.forwarded x
    rw [htask] at h
    rcases Side.eq_or_eq_other x dst with rfl | rfl
    · simpa [Endpoint.shutdown, Task.rest] using h
    · simpa [Endpoint.shutdown, Task.rest] using h
  oneChunk x := Nat.zero_le _
  writing _ _ _ h := by cases h
  counted := by
    right
    intro x
    obtain ⟨_, _, hfail⟩ | hcount := hs.counted
    · rw [htask] at hfail
      cases hfail
    obtain ⟨before, htaken, hbytes⟩ := hcount x
    rw [htask] at htaken
    refine ⟨before, ?_, hbytes⟩
    rcases Side.eq_or_eq_other x dst with rfl | rfl
    · simpa [Endpoint.shutdown, Task.chunk] using htaken
    · simpa [Task.chunk] using htaken
  shutEof x h := by
    rcases Side.eq_or_eq_other x dst with rfl | rfl
    · exact hs.shutEof x (by simpa using h)
    · exact hs.shutting dst.other (by simpa using htask)
  shutting _ h := by cases h
  closing _ h := by cases h
  drained hfired x heof := by
    have h := hs.drained hfired x heof
    rcases Side.eq_or_eq_other x dst with rfl | rfl
    · simpa [Endpoint.shutdown] using h
    · simpa using h
  finished _ _ h := by cases h

theorem Inv.closeOne (hs : Inv p s) {src : Side} (htask : s.task = .closing src) :
    Inv p (s.closeOne src) := by
  have hfired := hs.closing src htask
  have hends : ∀ x, ((s.closeOne src).ends x).toSocket = (s.ends x).toSocket ∧
      ((s.closeOne src).ends x).sent = (s.ends x).sent ∧
      ((s.closeOne src).ends x).taken = (s.ends x).taken ∧
      ((s.closeOne src).ends x).written = (s.ends x).written := by
    intro x
    by_cases heof : s.eof src = true
    · simp [State.closeOne, heof]
    · rcases Side.eq_or_eq_other x src with rfl | rfl <;>
        simp [State.closeOne, heof, Endpoint.shutdown]
  have hnext : (s.closeOne src).task = .selecting ∨ (s.closeOne src).task = .closing .server := by
    cases src <;> simp [State.closeOne]
  have hrest : ∀ x, (s.closeOne src).task.rest x = [] := by
    intro x
    rcases hnext with h | h <;> rw [h] <;> rfl
  have hchunk : ∀ x, (s.closeOne src).task.chunk x = s.task.chunk x := by
    intro x
    rw [htask]
    rcases hnext with h | h <;> rw [h] <;> rfl
  constructor
  · intro x
    obtain ⟨hsocket, hsent, htaken, _⟩ := hends x
    rw [hsent, htaken, hs.received x, hsocket]
  · intro x
    rw [hrest, (hends x).2.2.1, (hends x.other).2.2.2, hs.forwarded x, htask]
    rfl
  · intro x
    rw [hrest]
    exact Nat.zero_le _
  · intro src' chunk rest h
    rcases hnext with h' | h' <;> rw [h'] at h <;> cases h
  · right
    intro x
    obtain ⟨_, _, hfail⟩ | hcount := hs.counted
    · rw [htask] at hfail
      cases hfail
    rw [(hends x).2.2.1, hchunk]
    exact hcount x
  · intro x h
    rcases Side.eq_or_eq_other x src with rfl | rfl
    · simp [State.closeOne]
    · have hold : (s.ends src.other.other).shut = true := by
        by_cases heof : s.eof src = true
        · simpa [State.closeOne, heof] using h
        · simpa [State.closeOne, heof] using h
      simpa [State.closeOne] using hs.shutEof src.other hold
  · intro x h
    rcases hnext with h' | h' <;> rw [h'] at h <;> cases h
  · intro x _
    exact hfired
  · intro h
    rw [show (s.closeOne src).graceFired = s.graceFired from rfl, hfired] at h
    cases h
  · intro c d h
    rcases hnext with h' | h' <;> rw [h'] at h <;> cases h

/-- An error ends the relay with the rest of the chunk unwritten. -/
theorem Inv.fail (hs : Inv p s) {src : Side} {rest : Bytes}
    (hrest : ∀ x, (Task.failed src rest).rest x = s.task.rest x) :
    Inv p { s with task := .failed src rest } where
  received := hs.received
  forwarded x := by rw [hrest]; exact hs.forwarded x
  oneChunk x := by rw [hrest]; exact hs.oneChunk x
  writing _ _ _ h := by cases h
  counted := .inl ⟨src, rest, rfl⟩
  shutEof := hs.shutEof
  shutting _ h := by cases h
  closing _ h := by cases h
  drained := hs.drained
  finished _ _ h := by cases h

theorem Inv.graceExpired (hs : Inv p s) (htask : s.task = .selecting) :
    Inv p { s with task := .closing .client, graceFired := true } where
  received := hs.received
  forwarded x := by simpa [htask, Task.rest] using hs.forwarded x
  oneChunk x := Nat.zero_le _
  writing _ _ _ h := by cases h
  counted := by simpa [htask, Task.chunk] using hs.counted
  shutEof := hs.shutEof
  shutting _ h := by cases h
  closing _ _ := rfl
  drained h := by cases h
  finished _ _ h := by cases h

theorem Inv.finish (hs : Inv p s) (htask : s.task = .selecting)
    (heof : s.eof .client = true ∧ s.eof .server = true) :
    Inv p { s with task := .finished (s.bytes .client) (s.bytes .server) } where
  received := hs.received
  forwarded x := by simpa [htask, Task.rest] using hs.forwarded x
  oneChunk x := Nat.zero_le _
  writing _ _ _ h := by cases h
  counted := by simpa [htask, Task.chunk] using hs.counted
  shutEof := hs.shutEof
  shutting _ h := by cases h
  closing _ h := by cases h
  drained := hs.drained
  finished c d h := by
    obtain ⟨rfl, rfl⟩ := Task.finished.inj h
    refine ⟨fun src => ?_, rfl, rfl⟩
    cases src with
    | client => exact heof.1
    | server => exact heof.2

/-- What a peer does to its socket: the relay's side of the history stays, and nothing
comes after the end of a stream. -/
structure PeerStep (f : Endpoint → Endpoint) (e : Endpoint) : Prop where
  received : e.sent = e.taken ++ e.incoming → (f e).sent = (f e).taken ++ (f e).incoming
  taken : (f e).taken = e.taken
  written : (f e).written = e.written
  shut : (f e).shut = e.shut
  drained : e.incoming = [] ∧ e.fin = true → (f e).incoming = [] ∧ (f e).fin = true

theorem peerStep_send {e : Endpoint} {data : Bytes} (h : e.fin = false) :
    PeerStep (·.peerSend data) e := by
  constructor <;> simp +contextual [Endpoint.peerSend, h]

theorem peerStep_fin (e : Endpoint) : PeerStep Endpoint.peerFin e := by
  constructor <;> simp +contextual [Endpoint.peerFin]

theorem peerStep_accept (e : Endpoint) (n : ℕ) : PeerStep (·.peerAccept n) e := by
  constructor <;> simp +contextual [Endpoint.peerAccept]

theorem Inv.peer (hs : Inv p s) {side : Side} {f : Endpoint → Endpoint}
    (hf : PeerStep f (s.ends side)) : Inv p { s with ends := s.update side f } := by
  have hends : ∀ x, (s.update side f x).taken = (s.ends x).taken ∧
      (s.update side f x).written = (s.ends x).written ∧
      (s.update side f x).shut = (s.ends x).shut := by
    intro x
    rcases Side.eq_or_eq_other x side with rfl | rfl
    · simp [hf.taken, hf.written, hf.shut]
    · simp
  refine ⟨?_, ?_, hs.oneChunk, hs.writing, ?_, ?_, hs.shutting, hs.closing, ?_, hs.finished⟩
  · intro x
    rcases Side.eq_or_eq_other x side with rfl | rfl
    · simpa using hf.received (hs.received x)
    · simpa using hs.received side.other
  · intro x
    rw [(hends x).1, (hends x.other).2.1]
    exact hs.forwarded x
  · refine hs.counted.imp id (fun hcount x => ?_)
    rw [(hends x).1]
    exact hcount x
  · intro x h
    rw [(hends x.other).2.2] at h
    exact hs.shutEof x h
  · intro hfired x heof
    rcases Side.eq_or_eq_other x side with rfl | rfl
    · simpa using hf.drained (hs.drained hfired x heof)
    · simpa using hs.drained hfired side.other heof

/-- Every action keeps the invariant. -/
theorem Inv.step (hs : Inv p s) {act : Action} {t : State} (h : step p s act = some t) :
    Inv p t := by
  cases act with
  | read src n =>
    obtain ⟨htask, ⟨hopen, hpos, hbuf, hn⟩, rfl⟩ := step_read_iff.mp h
    exact hs.readChunk htask hopen hpos hbuf hn
  | readEof src =>
    obtain ⟨htask, ⟨_, hempty, hfin⟩, rfl⟩ := step_readEof_iff.mp h
    exact hs.readEof htask hempty hfin
  | readError src =>
    obtain ⟨htask, _, rfl⟩ := step_readError_iff.mp h
    exact hs.fail (by simp [htask, Task.rest])
  | write n =>
    obtain ⟨src, chunk, rest, htask, _, rfl⟩ := step_write_iff.mp h
    exact hs.writeSome htask
  | writeError =>
    obtain ⟨src, chunk, rest, htask, rfl⟩ := step_writeError_iff.mp h
    exact hs.fail (by simp [htask, Task.rest])
  | shutdown =>
    obtain ⟨dst, htask, rfl⟩ := step_shutdown_iff.mp h
    exact hs.shutdown htask
  | graceExpired =>
    obtain ⟨deadline, htask, _, _, rfl⟩ := step_graceExpired_iff.mp h
    exact hs.graceExpired htask
  | close =>
    obtain ⟨src, htask, rfl⟩ := step_close_iff.mp h
    exact hs.closeOne htask
  | finish =>
    obtain ⟨htask, heof, rfl⟩ := step_finish_iff.mp h
    exact hs.finish htask heof
  | peerSend side data =>
    obtain ⟨⟨hfin, _⟩, rfl⟩ := step_peerSend_iff.mp h
    exact hs.peer (peerStep_send hfin)
  | peerFin side =>
    obtain rfl := Option.some.inj h
    exact hs.peer (peerStep_fin _)
  | peerAccept side n =>
    obtain rfl := Option.some.inj h
    exact hs.peer (peerStep_accept _ n)
  | tick d =>
    obtain rfl := Option.some.inj h
    exact ⟨hs.received, hs.forwarded, hs.oneChunk, hs.writing, hs.counted, hs.shutEof,
      hs.shutting, hs.closing, hs.drained, hs.finished⟩

end Preservation

theorem inv_of_run {p : Params} {client server : Socket} {now : Instant} {acts : List Action}
    {s : State} (h : (system p client server now).run acts = some s) : Inv p s :=
  System.Reachable.invariant (S := system p client server now) (inv_initial p client server now)
    (fun _ _ _ hs hstep => hs.step hstep) ⟨acts, h⟩

theorem update_written (s : State) (side : Side) (f : Endpoint → Endpoint)
    (hf : (f (s.ends side)).written = (s.ends side).written) (x : Side) :
    (s.update side f x).written = (s.ends x).written := by
  rcases Side.eq_or_eq_other x side with rfl | rfl
  · simpa using hf
  · simp

/-- Only a write adds to what was written, and it goes to the other side of the arm. -/
theorem write_of_written_ne {p : Params} {s t : State} {act : Action}
    (h : step p s act = some t) {dst : Side} (hne : (t.ends dst).written ≠ (s.ends dst).written) :
    ∃ chunk rest, s.task = .writing dst.other chunk rest := by
  cases act with
  | read src n =>
    obtain ⟨_, _, rfl⟩ := step_read_iff.mp h
    exact absurd (update_written s src _ rfl dst) hne
  | readEof src => obtain ⟨_, _, rfl⟩ := step_readEof_iff.mp h; exact absurd rfl hne
  | readError src => obtain ⟨_, _, rfl⟩ := step_readError_iff.mp h; exact absurd rfl hne
  | write n =>
    obtain ⟨src, chunk, rest, htask, _, rfl⟩ := step_write_iff.mp h
    rcases Side.eq_or_eq_other dst src with rfl | rfl
    · exact absurd (by simp) hne
    · exact ⟨chunk, rest, by simpa using htask⟩
  | writeError => obtain ⟨_, _, _, _, rfl⟩ := step_writeError_iff.mp h; exact absurd rfl hne
  | shutdown =>
    obtain ⟨side, _, rfl⟩ := step_shutdown_iff.mp h
    exact absurd (update_written s side _ rfl dst) hne
  | graceExpired => obtain ⟨_, _, _, _, rfl⟩ := step_graceExpired_iff.mp h; exact absurd rfl hne
  | close =>
    obtain ⟨src, _, rfl⟩ := step_close_iff.mp h
    refine absurd ?_ hne
    by_cases heof : s.eof src = true
    · simp [State.closeOne, heof]
    · simpa [State.closeOne, heof] using update_written s src.other Endpoint.shutdown rfl dst
  | finish => obtain ⟨_, _, rfl⟩ := step_finish_iff.mp h; exact absurd rfl hne
  | peerSend side data =>
    obtain ⟨_, rfl⟩ := step_peerSend_iff.mp h
    exact absurd (update_written s side _ rfl dst) hne
  | peerFin side =>
    obtain rfl := Option.some.inj h
    exact absurd (update_written s side _ rfl dst) hne
  | peerAccept side n =>
    obtain rfl := Option.some.inj h
    exact absurd (update_written s side _ rfl dst) hne
  | tick d =>
    obtain rfl := Option.some.inj h
    exact absurd rfl hne

/-- What holds at every await of the relay. -/
structure Conserves (p : Params) (s : State) : Prop where
  /-- What was written to one peer is a prefix of what was read from the other, short of
  it by the rest of the chunk being written. -/
  forwarded : ∀ src, ∃ rest, (s.ends src).taken = (s.ends src.other).written ++ rest ∧
    rest.length ≤ p.bufSize ∧ (rest = [] ∨ s.task = .failed src rest ∨
      ∃ chunk, s.task = .writing src chunk rest ∧ rest <:+ chunk)
  /-- What was read is what the peer sent, in order. -/
  inOrder : ∀ src, (s.ends src).sent = (s.ends src).taken ++ (s.ends src).incoming
  /-- Nothing is written after the write half was shut down. -/
  notAfterShutdown : ∀ act t, step p s act = some t → ∀ dst,
    (t.ends dst).written ≠ (s.ends dst).written → (s.ends dst).shut = false
  counted : ∀ c d, s.task = .finished c d →
    c = UInt64.ofNat (s.ends .server).written.length ∧
      d = UInt64.ofNat (s.ends .client).written.length
  /-- Without the grace timer both streams were forwarded up to their EOF. -/
  complete : ∀ c d, s.task = .finished c d → s.graceFired = false → ∀ src,
    (s.ends src).fin = true ∧ (s.ends src.other).written = (s.ends src).sent

/-- Over every run, whatever the peers, the clock and the socket errors do. -/
theorem run_conserves (p : Params) (client server : Socket) (now : Instant) (acts : List Action)
    (s : State) (hrun : (system p client server now).run acts = some s) : Conserves p s := by
  have hs := inv_of_run hrun
  constructor
  · intro src
    refine ⟨s.task.rest src, hs.forwarded src, hs.oneChunk src, ?_⟩
    cases htask : s.task with
    | writing src' chunk rest =>
      by_cases hsrc : src = src'
      · subst hsrc
        exact .inr (.inr ⟨chunk, by simp [Task.rest], by
          simpa [Task.rest] using (hs.writing src chunk rest htask).2.2⟩)
      · exact .inl (by simp [Task.rest, hsrc])
    | failed src' rest =>
      by_cases hsrc : src = src'
      · subst hsrc
        exact .inr (.inl (by simp [Task.rest]))
      · exact .inl (by simp [Task.rest, hsrc])
    | selecting => exact .inl rfl
    | shutting dst => exact .inl rfl
    | closing src' => exact .inl rfl
    | finished c d => exact .inl rfl
  · exact hs.received
  · intro act t h dst hne
    obtain ⟨chunk, rest, htask⟩ := write_of_written_ne h hne
    obtain ⟨hopen, _⟩ := hs.writing _ _ _ htask
    have hshut := hs.shutEof dst.other
    rw [Side.other_other, hopen] at hshut
    simpa using hshut
  · intro c d htask
    obtain ⟨_, rfl, rfl⟩ := hs.finished c d htask
    have hcount : ∀ src, s.bytes src = UInt64.ofNat (s.ends src.other).written.length := by
      intro src
      obtain ⟨_, _, hfail⟩ | hcount := hs.counted
      · rw [htask] at hfail
        cases hfail
      obtain ⟨before, htaken, hbytes⟩ := hcount src
      have hforward := hs.forwarded src
      rw [htask] at htaken hforward
      rw [hbytes, show before = (s.ends src.other).written by
        simpa [htaken, Task.chunk, Task.rest] using hforward]
    exact ⟨hcount .client, hcount .server⟩
  · intro c d htask hfired src
    obtain ⟨heof, _⟩ := hs.finished c d htask
    obtain ⟨hempty, hfin⟩ := hs.drained hfired src (heof src)
    have hforward := hs.forwarded src
    rw [htask] at hforward
    refine ⟨hfin, ?_⟩
    rw [hs.received src, hempty, hforward]
    simp [Task.rest]

/-! ## One short connection -/

def sampleParams : Params := { bufSize := 2, bufSize_pos := Nat.zero_lt_two, gracePeriod := 50 }

/-- A socket that holds some bytes already, with room for `room` more in the other
direction. -/
def sampleSocket (incoming : Bytes) (fin : Bool) (room : ℕ) : Socket :=
  { incoming, fin, outgoing := [], inCapacity := 8, outCapacity := room }

/-- The client sends three bytes and closes, the server answers one and closes. -/
def sampleActions : List Action :=
  [.read .client 2, .write 1, .write 1, .read .client 1, .write 1, .readEof .client, .shutdown,
    .read .server 1, .write 1, .readEof .server, .shutdown, .finish]

theorem run_conserves_sample : ∃ s,
    (system sampleParams (sampleSocket [1, 2, 3] true 8) (sampleSocket [4] true 8) 0).run
      sampleActions = some s ∧ s.task = .finished 3 1 ∧ Conserves sampleParams s := by
  have hrun : ((system sampleParams (sampleSocket [1, 2, 3] true 8) (sampleSocket [4] true 8)
      0).run sampleActions).map State.task = some (.finished 3 1) := by
    decide
  obtain ⟨s, hs, htask⟩ := Option.map_eq_some_iff.mp hrun
  exact ⟨s, hs, htask, run_conserves sampleParams _ _ 0 sampleActions s hs⟩

end TransProxy.Proxy
