import TransProxy.Proxy.Conservation

/-!
# What the server sent comes to the client

As long as the peers take what is written to them, nothing keeps the relay from delivering
all that the server has sent so far.
-/
namespace TransProxy.Proxy
open Library Net

/-- The task goes on with what came from the server, and the peers take what was written. -/
def Action.delivers : Action → Bool
  | .read .server _ | .write _ | .shutdown | .peerAccept _ _ => true
  | _ => false

/-- An error is returned, or the grace timer fires. -/
def Action.isFault : Action → Bool
  | .readError _ | .writeError | .graceExpired => true
  | _ => false

/-- The relay goes on, and there is room for something in an empty buffer. -/
structure Flowing (p : Params) (s : State) : Prop where
  inv : Inv p s
  alive : ∀ src rest, s.task ≠ .failed src rest
  noGrace : s.graceFired = false
  takes : ∀ side, 0 < (s.ends side).outCapacity

def CanDeliver (p : Params) (sent : Bytes) (s : State) : Prop :=
  CanReach (step p) (fun act => act.delivers = true) (fun t => (t.ends .client).written = sent) s

theorem flowing_initial (p : Params) {client server : Socket} (now : Instant)
    (hclient : 0 < client.outCapacity) (hserver : 0 < server.outCapacity) :
    Flowing p (initial client server now) where
  inv := inv_initial p client server now
  alive _ _ := Task.noConfusion
  noGrace := rfl
  takes side := by cases side <;> assumption

section Delivery
variable {p : Params} {s t : State} {sent : Bytes} {act : Action}

theorem isFault_of_delivers (h : act.delivers = true) : act.isFault = false := by
  cases act <;> first | rfl | cases h

theorem update_outCapacity {side : Side} {f : Endpoint → Endpoint}
    (hf : (f (s.ends side)).outCapacity = (s.ends side).outCapacity) (x : Side) :
    (s.update side f x).outCapacity = (s.ends x).outCapacity := by
  rcases Side.eq_or_eq_other x side with rfl | rfl
  · simpa using hf
  · simp

/-- The relay only changes what is in the buffers. -/
theorem outCapacity_step (h : step p s act = some t) (x : Side) :
    (t.ends x).outCapacity = (s.ends x).outCapacity := by
  cases act with
  | read side n =>
    obtain ⟨_, _, rfl⟩ := step_read_iff.mp h
    exact update_outCapacity rfl x
  | readEof side =>
    obtain ⟨_, _, rfl⟩ := step_readEof_iff.mp h
    rfl
  | readError side =>
    obtain ⟨_, _, rfl⟩ := step_readError_iff.mp h
    rfl
  | write n =>
    obtain ⟨src, chunk, rest, _, _, rfl⟩ := step_write_iff.mp h
    rw [writeSome_ends]
    exact update_outCapacity rfl x
  | writeError =>
    obtain ⟨src, chunk, rest, _, rfl⟩ := step_writeError_iff.mp h
    rfl
  | shutdown =>
    obtain ⟨dst, _, rfl⟩ := step_shutdown_iff.mp h
    exact update_outCapacity rfl x
  | graceExpired =>
    obtain ⟨_, _, _, _, rfl⟩ := step_graceExpired_iff.mp h
    rfl
  | close =>
    obtain ⟨src, _, rfl⟩ := step_close_iff.mp h
    simp only [State.closeOne]
    split_ifs
    · rfl
    · exact update_outCapacity rfl x
  | finish =>
    obtain ⟨_, _, rfl⟩ := step_finish_iff.mp h
    rfl
  | peerSend side data =>
    obtain ⟨_, rfl⟩ := step_peerSend_iff.mp h
    exact update_outCapacity rfl x
  | peerFin side =>
    obtain rfl := Option.some.inj h
    exact update_outCapacity rfl x
  | peerAccept side n =>
    obtain rfl := Option.some.inj h
    exact update_outCapacity rfl x
  | tick d =>
    obtain rfl := Option.some.inj h
    rfl

/-- Without a fault the relay goes on. -/
theorem Flowing.unfailed (hs : Flowing p s) (hact : act.isFault = false)
    (h : step p s act = some t) :
    (∀ src rest, t.task ≠ .failed src rest) ∧ t.graceFired = false := by
  cases act with
  | read side n =>
    obtain ⟨_, _, rfl⟩ := step_read_iff.mp h
    exact ⟨fun _ _ => Task.noConfusion, hs.noGrace⟩
  | readEof side =>
    obtain ⟨_, _, rfl⟩ := step_readEof_iff.mp h
    exact ⟨fun _ _ => Task.noConfusion, hs.noGrace⟩
  | write n =>
    obtain ⟨src, chunk, rest, _, _, rfl⟩ := step_write_iff.mp h
    refine ⟨fun _ _ => ?_, by simpa using hs.noGrace⟩
    rw [writeSome_task]
    split_ifs <;> exact Task.noConfusion
  | shutdown =>
    obtain ⟨dst, _, rfl⟩ := step_shutdown_iff.mp h
    exact ⟨fun _ _ => Task.noConfusion, hs.noGrace⟩
  | close =>
    -- only the grace timer leads there
    obtain ⟨src, htask, rfl⟩ := step_close_iff.mp h
    have hfired := hs.inv.closing src htask
    rw [hs.noGrace] at hfired
    cases hfired
  | finish =>
    obtain ⟨_, _, rfl⟩ := step_finish_iff.mp h
    exact ⟨fun _ _ => Task.noConfusion, hs.noGrace⟩
  | peerSend side data =>
    obtain ⟨_, rfl⟩ := step_peerSend_iff.mp h
    exact ⟨hs.alive, hs.noGrace⟩
  | peerFin side =>
    obtain rfl := Option.some.inj h
    exact ⟨hs.alive, hs.noGrace⟩
  | peerAccept side n =>
    obtain rfl := Option.some.inj h
    exact ⟨hs.alive, hs.noGrace⟩
  | tick d =>
    obtain rfl := Option.some.inj h
    exact ⟨hs.alive, hs.noGrace⟩
  | _ => cases hact

theorem Flowing.step (hs : Flowing p s) (hact : act.isFault = false)
    (h : step p s act = some t) : Flowing p t := by
  obtain ⟨halive, hgrace⟩ := hs.unfailed hact h
  refine ⟨hs.inv.step h, halive, hgrace, fun side => ?_⟩
  exact (hs.takes side).trans_eq (outCapacity_step h side).symm

theorem sent_of_delivers (hact : act.delivers = true) (h : Proxy.step p s act = some t) :
    (t.ends .server).sent = (s.ends .server).sent := by
  cases act with
  | read side n =>
    cases side with
    | client => cases hact
    | server =>
      obtain ⟨_, _, rfl⟩ := step_read_iff.mp h
      simp [State.readChunk, Endpoint.read]
  | write n =>
    obtain ⟨src, chunk, rest, _, _, rfl⟩ := step_write_iff.mp h
    rw [writeSome_ends]
    rcases Side.eq_or_eq_other .server src.other with hside | hside <;>
      simp [hside, Endpoint.write]
  | shutdown =>
    obtain ⟨dst, _, rfl⟩ := step_shutdown_iff.mp h
    cases dst <;> rfl
  | peerAccept side n =>
    obtain rfl := Option.some.inj h
    cases side <;> rfl
  | _ => cases hact

theorem Flowing.deliver (hs : Flowing p s) (hact : act.delivers = true)
    (h : Proxy.step p s act = some t) :
    Flowing p t ∧ (t.ends .server).sent = (s.ends .server).sent :=
  ⟨hs.step (isFault_of_delivers hact) h, sent_of_delivers hact h⟩

/-- When the peer has taken everything, one byte more can be written. -/
theorem exists_write (hs : Flowing p s) {src : Side} {chunk rest : Bytes}
    (htask : s.task = .writing src chunk rest) : ∃ t u,
      step p s (.peerAccept src.other (s.ends src.other).outgoing.length) = some t ∧
      step p t (.write 1) = some u ∧
      u.task = (if rest.length ≤ 1 then .selecting else .writing src chunk (rest.drop 1)) ∧
      (u.ends .server).incoming = (s.ends .server).incoming := by
  have hpos := List.length_pos_iff.mpr (hs.inv.writing src chunk rest htask).2.1
  refine ⟨_, _, rfl, step_write_iff.mpr ⟨src, chunk, rest, htask, ⟨Nat.one_pos, hpos, ?_⟩, rfl⟩,
    writeSome_task .., ?_⟩
  · have htakes := hs.takes src.other
    simp only [update_self, Endpoint.room, Endpoint.peerAccept, List.drop_length, List.length_nil]
    omega
  · rw [writeSome_ends]
    cases src <;> rfl

/-- Write what is left of the chunk, byte by byte. -/
theorem canDeliver_of_writing {src : Side} {chunk rest : Bytes} (hs : Flowing p s)
    (htask : s.task = .writing src chunk rest) (hsent : (s.ends .server).sent = sent)
    (hnext : ∀ t, Flowing p t → t.task = .selecting → (t.ends .server).sent = sent →
      (t.ends .server).incoming = (s.ends .server).incoming → CanDeliver p sent t) :
    CanDeliver p sent s := by
  induction hlen : rest.length generalizing s rest with
  | zero =>
    have hne := (hs.inv.writing src chunk rest htask).2.1
    exact absurd (List.length_eq_zero_iff.mp hlen) hne
  | succ n ih =>
    obtain ⟨t, u, haccept, hwrite, hutask, hincoming⟩ := exists_write hs htask
    obtain ⟨ht, hsent'⟩ := hs.deliver rfl haccept
    obtain ⟨hu, hsent''⟩ := ht.deliver rfl hwrite
    have husent : (u.ends .server).sent = sent := hsent''.trans (hsent'.trans hsent)
    refine .next _ rfl haccept (.next _ rfl hwrite ?_)
    split_ifs at hutask with hlast
    · exact hnext u hu hutask husent hincoming
    · refine ih hu hutask husent (fun v hv hvtask hvsent hvincoming => ?_) ?_
      · exact hnext v hv hvtask hvsent (hvincoming.trans hincoming)
      · rw [List.length_drop, hlen, Nat.add_sub_cancel]

/-- Nothing more has arrived, and nothing is in hand. -/
theorem written_of_selecting (hs : Flowing p s) (htask : s.task = .selecting)
    (hempty : (s.ends .server).incoming = []) :
    (s.ends .client).written = (s.ends .server).sent := by
  have hforward := hs.inv.forwarded .server
  rw [htask] at hforward
  rw [hs.inv.received .server, hempty, hforward]
  simp [Task.rest, Side.other]

theorem canDeliver_of_selecting (hs : Flowing p s) (htask : s.task = .selecting)
    (hsent : (s.ends .server).sent = sent) : CanDeliver p sent s := by
  induction hlen : (s.ends .server).incoming.length generalizing s with
  | zero =>
    exact .here ((written_of_selecting hs htask (List.length_eq_zero_iff.mp hlen)).trans hsent)
  | succ n ih =>
    have hpos : 0 < (s.ends .server).incoming.length := by omega
    have hopen : s.eof .server = false := by
      by_contra hne
      rw [Bool.not_eq_false] at hne
      have hempty := (hs.inv.drained hs.noGrace .server hne).1
      rw [hempty] at hpos
      exact absurd hpos (Nat.lt_irrefl 0)
    have hread : step p s (.read .server 1) = some (s.readChunk .server 1) :=
      step_read_iff.mpr ⟨htask, ⟨hopen, Nat.one_pos, p.bufSize_pos, hpos⟩, rfl⟩
    obtain ⟨ht, htsent⟩ := hs.deliver rfl hread
    refine .next _ rfl hread (canDeliver_of_writing ht rfl (htsent.trans hsent) ?_)
    intro u hu hutask husent hincoming
    refine ih hu hutask husent ?_
    rw [hincoming]
    simp [State.readChunk, Endpoint.read, hlen]

/-- From wherever the relay is, all that the server has sent can be delivered. -/
theorem canDeliver (hs : Flowing p s) : CanDeliver p (s.ends .server).sent s := by
  cases htask : s.task with
  | selecting => exact canDeliver_of_selecting hs htask rfl
  | writing src chunk rest =>
    exact canDeliver_of_writing hs htask rfl fun t ht htask' hsent _ =>
      canDeliver_of_selecting ht htask' hsent
  | shutting dst =>
    have hshut := (@step_shutdown_iff p s _).mpr ⟨dst, htask, rfl⟩
    obtain ⟨ht, hsent⟩ := hs.deliver rfl hshut
    exact .next _ rfl hshut (canDeliver_of_selecting ht rfl hsent)
  | closing src =>
    have hfired := hs.inv.closing src htask
    rw [hs.noGrace] at hfired
    cases hfired
  | finished a b =>
    obtain ⟨heof, _⟩ := hs.inv.finished a b htask
    obtain ⟨hempty, _⟩ := hs.inv.drained hs.noGrace .server (heof .server)
    have hforward := hs.inv.forwarded .server
    rw [htask] at hforward
    refine .here ?_
    rw [hs.inv.received .server, hempty, hforward]
    simp [Task.rest, Side.other]
  | failed src rest => exact absurd htask (hs.alive src rest)

end Delivery
end TransProxy.Proxy
