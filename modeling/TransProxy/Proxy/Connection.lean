import TransProxy.Proxy.Delivery
import TransProxy.Tunnel.HttpConnect

/-!
# A connection from the handshake to its end

`handle_connection` first writes what the handshake read beyond its header to the
client, and then starts the relay. From the handshake on, the upstream sends what
the handshake left unread.
-/
namespace TransProxy.Proxy
open Library Net Tunnel

/-- Where `handle_connection` is once the tunnel is established. -/
inductive Phase where
  /-- In `write_all` of the leftover, of which `pending` is still to be written. -/
  | leftover (pending : Bytes)
  | relaying
  | failed

structure Connection where
  phase : Phase
  /-- What was written of the leftover. -/
  greeted : Bytes
  /-- The state the relay is in, or starts from. -/
  relay : State

inductive ConnectionAction where
  | writeLeftover (n : ℕ)
  | leftoverError
  | relay (act : Action)

/-- A peer or the clock acts. -/
def Action.outside : Action → Bool
  | .peerSend _ _ | .peerFin _ | .peerAccept _ _ | .tick _ => true
  | _ => false

/-- The task goes on with what is for the client, and the peers take what was written. -/
def ConnectionAction.delivers : ConnectionAction → Bool
  | .writeLeftover _ => true
  | .leftoverError => false
  | .relay act => act.delivers

def ConnectionAction.isFault : ConnectionAction → Bool
  | .writeLeftover _ => false
  | .leftoverError => true
  | .relay act => act.isFault

/-- Bytes on their way to the peer that the relay did not write. -/
def Endpoint.enqueue (e : Endpoint) (data : Bytes) : Endpoint :=
  { e with outgoing := e.outgoing ++ data }

namespace Connection

/-- An empty leftover is not written. -/
def start (leftover : Bytes) (client server : Socket) (now : Instant) : Connection :=
  { phase := if leftover = [] then .relaying else .leftover leftover
    greeted := []
    relay := initial client server now }

def writeLeftover (c : Connection) (pending : Bytes) (n : ℕ) : Connection :=
  { phase := if pending.length ≤ n then .relaying else .leftover (pending.drop n)
    greeted := c.greeted ++ pending.take n
    relay := { c.relay with ends := c.relay.update .client (·.enqueue (pending.take n)) } }

def step (p : Params) (c : Connection) : ConnectionAction → Option Connection
  | .writeLeftover n =>
    match c.phase with
    | .leftover pending =>
      if 0 < n ∧ n ≤ pending.length ∧ n ≤ (c.relay.ends .client).room then
        some (c.writeLeftover pending n)
      else none
    | _ => none
  | .leftoverError =>
    match c.phase with
    | .leftover _ => some { c with phase := .failed }
    | _ => none
  | .relay act =>
    match c.phase with
    | .relaying => (Proxy.step p c.relay act).map (fun s => { c with relay := s })
    | _ =>
      if act.outside then (Proxy.step p c.relay act).map (fun s => { c with relay := s }) else none

def system (p : Params) (leftover : Bytes) (client server : Socket) (now : Instant) :
    System Connection ConnectionAction :=
  { init := start leftover client server now, step := step p }

def delivered (c : Connection) : Bytes := c.greeted ++ (c.relay.ends .client).written

/-- The relay has not started: it has written nothing to the client. -/
def Idle (s : State) : Prop := s.task = .selecting ∧ (s.ends .client).written = []

/-- The leftover is written before the relay starts. -/
structure Inv (p : Params) (leftover : Bytes) (c : Connection) : Prop where
  relay : Proxy.Inv p c.relay
  waiting : ∀ pending, c.phase = .leftover pending →
    pending ≠ [] ∧ c.greeted ++ pending = leftover
  relaying : c.phase = .relaying → c.greeted = leftover
  failed : c.phase = .failed → c.greeted <+: leftover
  idle : c.phase ≠ .relaying → Idle c.relay

theorem inv_start (p : Params) (leftover : Bytes) (client server : Socket) (now : Instant) :
    Inv p leftover (start leftover client server now) where
  relay := inv_initial p client server now
  waiting pending h := by
    simp only [start] at h
    split_ifs at h with hempty
    obtain rfl := Phase.leftover.inj h
    exact ⟨hempty, rfl⟩
  relaying h := by
    simp only [start] at h
    split_ifs at h with hempty
    exact hempty.symm
  failed h := by
    simp only [start] at h
    split_ifs at h
  idle _ := ⟨rfl, rfl⟩

section Preservation
variable {p : Params} {leftover : Bytes} {c c' : Connection}

theorem peerStep_enqueue (e : Endpoint) (data : Bytes) : PeerStep (·.enqueue data) e := by
  constructor <;> simp +contextual [Endpoint.enqueue]

/-- The peers and the clock do not start the relay. -/
theorem Idle.step {s t : State} {act : Action} (hs : Idle s) (hout : act.outside = true)
    (h : Proxy.step p s act = some t) : Idle t := by
  cases act with
  | peerSend side data =>
    obtain ⟨_, rfl⟩ := step_peerSend_iff.mp h
    exact ⟨hs.1, (update_written s side _ rfl _).trans hs.2⟩
  | peerFin side =>
    obtain rfl := Option.some.inj h
    exact ⟨hs.1, (update_written s side _ rfl _).trans hs.2⟩
  | peerAccept side n =>
    obtain rfl := Option.some.inj h
    exact ⟨hs.1, (update_written s side _ rfl _).trans hs.2⟩
  | tick d => obtain rfl := Option.some.inj h; exact hs
  | _ => cases hout

theorem Inv.writeLeftover (hc : Inv p leftover c) {pending : Bytes}
    (hphase : c.phase = .leftover pending) (n : ℕ) :
    Inv p leftover (c.writeLeftover pending n) := by
  have hgreeted := (hc.waiting pending hphase).2
  have hidle := hc.idle (by simp [hphase])
  refine ⟨hc.relay.peer (peerStep_enqueue _ _), ?_, ?_, ?_, ?_⟩
  · intro rest h
    simp only [Connection.writeLeftover] at h ⊢
    split_ifs at h with hall
    obtain rfl := Phase.leftover.inj h
    rw [List.append_assoc, List.take_append_drop]
    exact ⟨fun hnil => hall (List.drop_eq_nil_iff.mp hnil), hgreeted⟩
  · intro h
    simp only [Connection.writeLeftover] at h ⊢
    split_ifs at h with hall
    rw [List.take_of_length_le hall, hgreeted]
  · intro h
    simp only [Connection.writeLeftover] at h
    split_ifs at h
  · intro _
    exact ⟨hidle.1, (update_written c.relay .client _ rfl _).trans hidle.2⟩

theorem Inv.relayStep (hc : Inv p leftover c) {act : Action} {s : State}
    (hact : c.phase = .relaying ∨ act.outside = true)
    (h : Proxy.step p c.relay act = some s) : Inv p leftover { c with relay := s } where
  relay := hc.relay.step h
  waiting := hc.waiting
  relaying := hc.relaying
  failed := hc.failed
  idle hphase := (hc.idle hphase).step (hact.resolve_left hphase) h

theorem step_relay {act : Action} (h : Connection.step p c (.relay act) = some c') :
    (c.phase = .relaying ∨ act.outside = true) ∧
      ∃ s, Proxy.step p c.relay act = some s ∧ { c with relay := s } = c' := by
  cases hphase : c.phase <;> simp_all [Connection.step]

theorem Inv.step (hc : Inv p leftover c) {act : ConnectionAction}
    (h : Connection.step p c act = some c') : Inv p leftover c' := by
  cases act with
  | writeLeftover n =>
    cases hphase : c.phase with
    | leftover pending =>
      simp only [Connection.step, hphase, Option.ite_none_right_eq_some, Option.some.injEq] at h
      obtain ⟨_, rfl⟩ := h
      exact hc.writeLeftover hphase n
    | relaying => simp [Connection.step, hphase] at h
    | failed => simp [Connection.step, hphase] at h
  | leftoverError =>
    cases hphase : c.phase with
    | leftover pending =>
      simp only [Connection.step, hphase, Option.some.injEq] at h
      subst h
      refine ⟨hc.relay, by simp, by simp, fun _ => ⟨pending, (hc.waiting pending hphase).2⟩, ?_⟩
      exact fun _ => hc.idle (by simp [hphase])
    | relaying => simp [Connection.step, hphase] at h
    | failed => simp [Connection.step, hphase] at h
  | relay act =>
    obtain ⟨hact, s, hs, rfl⟩ := step_relay h
    exact hc.relayStep hact hs

theorem inv_of_run {client server : Socket} {now : Instant} {acts : List ConnectionAction}
    (h : (system p leftover client server now).run acts = some c) : Inv p leftover c :=
  System.Reachable.invariant (S := system p leftover client server now)
    (inv_start p leftover client server now) (fun _ _ _ hc hstep => hc.step hstep) ⟨acts, h⟩

/-- What the client was sent is a prefix of the leftover and what the server sends. -/
theorem Inv.delivered_prefix (hc : Inv p leftover c) :
    c.delivered <+: leftover ++ (c.relay.ends .server).sent := by
  cases hphase : c.phase with
  | leftover pending =>
    rw [delivered, (hc.idle (by simp [hphase])).2, List.append_nil, ← (hc.waiting pending hphase).2]
    exact (List.prefix_append _ _).trans (List.prefix_append _ _)
  | failed =>
    rw [delivered, (hc.idle (by simp [hphase])).2, List.append_nil]
    exact (hc.failed hphase).trans (List.prefix_append _ _)
  | relaying =>
    have hforward := hc.relay.forwarded .server
    rw [delivered, hc.relaying hphase, List.prefix_append_right_inj, hc.relay.received .server,
      hforward, List.append_assoc]
    exact List.prefix_append _ _

/-- When the relay has come to its end without the grace timer, the client was sent the
leftover and all that the server sent up to its EOF. -/
theorem Inv.delivered_eq (hc : Inv p leftover c) {a b : UInt64}
    (htask : c.relay.task = .finished a b) (hfired : c.relay.graceFired = false) :
    (c.relay.ends .server).fin = true ∧
      c.delivered = leftover ++ (c.relay.ends .server).sent := by
  have hphase : c.phase = .relaying := by
    by_contra hne
    rw [(hc.idle hne).1] at htask
    cases htask
  obtain ⟨heof, _⟩ := hc.relay.finished a b htask
  obtain ⟨hempty, hfin⟩ := hc.relay.drained hfired .server (heof .server)
  have hforward := hc.relay.forwarded .server
  rw [htask] at hforward
  refine ⟨hfin, ?_⟩
  rw [delivered, hc.relaying hphase, hc.relay.received .server, hempty, hforward]
  simp [Task.rest, Side.other]

/-- As much of the leftover as there is room for is written next. -/
theorem Inv.exists_writeLeftover (hc : Inv p leftover c) {pending : Bytes} {n : ℕ}
    (hphase : c.phase = .leftover pending) (hpos : 0 < n) (hlen : n ≤ pending.length)
    (hroom : n ≤ (c.relay.ends .client).room) : ∃ d,
      Connection.step p c (.writeLeftover n) = some d ∧
        d.delivered = c.delivered ++ pending.take n := by
  have hwritten := (hc.idle (by simp [hphase])).2
  refine ⟨c.writeLeftover pending n, ?_, ?_⟩
  · rw [Connection.step, hphase]
    exact if_pos ⟨hpos, hlen, hroom⟩
  · simp only [delivered, Connection.writeLeftover, update_self, Endpoint.enqueue, hwritten,
      List.append_nil]

theorem Inv.pending (hc : Inv p leftover c) {pending : Bytes}
    (hphase : c.phase = .leftover pending) : c.delivered ++ pending = leftover := by
  rw [delivered, (hc.idle (by simp [hphase])).2, List.append_nil, (hc.waiting pending hphase).2]

/-- As long as the peers take what is written to them, the client can be sent the data. -/
def CanDeliver (p : Params) (c : Connection) (data : Bytes) : Prop :=
  CanReach (Connection.step p) (fun act => act.delivers = true) (fun d => d.delivered = data) c

theorem Inv.canDeliver_of_relaying (hc : Inv p leftover c) (hs : Flowing p c.relay)
    (hphase : c.phase = .relaying) : c.CanDeliver p (leftover ++ (c.relay.ends .server).sent) := by
  let embed : State → Connection := fun s => { c with relay := s }
  have hallowed : ∀ act : Action, act.delivers = true →
      (ConnectionAction.relay act).delivers = true := fun _ h => h
  have hgoal : ∀ s, (s.ends .client).written = (c.relay.ends .server).sent →
      (embed s).delivered = leftover ++ (c.relay.ends .server).sent := by
    intro s hs
    rw [delivered, hs]
    exact congrArg (· ++ _) (hc.relaying hphase)
  have hstep : ∀ s act t, Proxy.step p s act = some t →
      Connection.step p (embed s) (.relay act) = some (embed t) := by
    intro s act t h
    simp [embed, Connection.step, hphase, h]
  exact CanReach.map hallowed hgoal hstep (Proxy.canDeliver hs)

theorem Inv.flowing_writeLeftover (hc : Inv p leftover c) (hs : Flowing p c.relay)
    {pending : Bytes} (hphase : c.phase = .leftover pending) (n : ℕ) :
    Flowing p (c.writeLeftover pending n).relay where
  inv := (hc.writeLeftover hphase n).relay
  alive := hs.alive
  noGrace := hs.noGrace
  takes side := (hs.takes side).trans_eq (update_outCapacity rfl side).symm

/-- Without a fault the connection goes on. -/
theorem Inv.flowing_step (hc : Inv p leftover c) (hs : Flowing p c.relay)
    (hphase : c.phase ≠ .failed) {act : ConnectionAction} (hact : act.isFault = false)
    (h : Connection.step p c act = some c') : Flowing p c'.relay ∧ c'.phase ≠ .failed := by
  cases act with
  | writeLeftover n =>
    cases hcase : c.phase with
    | leftover pending =>
      simp only [Connection.step, hcase, Option.ite_none_right_eq_some, Option.some.injEq] at h
      obtain ⟨_, rfl⟩ := h
      refine ⟨hc.flowing_writeLeftover hs hcase n, ?_⟩
      simp only [Connection.writeLeftover]
      split_ifs <;> exact Phase.noConfusion
    | relaying => simp [Connection.step, hcase] at h
    | failed => exact absurd hcase hphase
  | leftoverError => cases hact
  | relay act =>
    obtain ⟨_, s, hstep, rfl⟩ := step_relay h
    exact ⟨hs.step hact hstep, hphase⟩

/-- When the client has taken everything, one byte more of the leftover can be written. -/
theorem Inv.exists_greet (hc : Inv p leftover c) (hs : Flowing p c.relay) {pending : Bytes}
    (hphase : c.phase = .leftover pending) : ∃ s,
      Connection.step p c (.relay (.peerAccept .client (c.relay.ends .client).outgoing.length)) =
        some { c with relay := s } ∧
      Connection.step p { c with relay := s } (.writeLeftover 1) =
        some ({ c with relay := s }.writeLeftover pending 1) ∧
      Inv p leftover ({ c with relay := s }.writeLeftover pending 1) ∧
      Flowing p ({ c with relay := s }.writeLeftover pending 1).relay ∧
      (({ c with relay := s }.writeLeftover pending 1).relay.ends .server).sent =
        (c.relay.ends .server).sent := by
  have hpos := List.length_pos_iff.mpr (hc.waiting pending hphase).1
  obtain ⟨s, haccept⟩ : ∃ s, Proxy.step p c.relay
      (.peerAccept .client (c.relay.ends .client).outgoing.length) = some s := ⟨_, rfl⟩
  obtain ⟨hflows, hsent⟩ := hs.deliver rfl haccept
  have hmid := hc.relayStep (.inr rfl) haccept
  refine ⟨s, ?_, ?_, hmid.writeLeftover hphase 1, hmid.flowing_writeLeftover hflows hphase 1, hsent⟩
  · simp [Connection.step, hphase, Action.outside, haccept]
  · obtain rfl := Option.some.inj haccept
    rw [Connection.step, hphase]
    refine if_pos ⟨Nat.one_pos, hpos, ?_⟩
    have htakes := hs.takes .client
    simp only [update_self, Endpoint.room, Endpoint.peerAccept, List.drop_length, List.length_nil]
    omega

/-- The leftover is written byte by byte, and the relay goes on from there. -/
theorem Inv.canDeliver (hc : Inv p leftover c) (hs : Flowing p c.relay)
    (hphase : c.phase ≠ .failed) : c.CanDeliver p (leftover ++ (c.relay.ends .server).sent) := by
  cases hcase : c.phase with
  | failed => exact absurd hcase hphase
  | relaying => exact hc.canDeliver_of_relaying hs hcase
  | leftover pending =>
    induction hlen : pending.length generalizing c pending with
    | zero => exact absurd (List.length_eq_zero_iff.mp hlen) (hc.waiting pending hcase).1
    | succ n ih =>
      obtain ⟨s, haccept, hwrite, hd, hflows, hsent⟩ := hc.exists_greet hs hcase
      refine .next _ rfl haccept (.next _ rfl hwrite ?_)
      rw [← hsent]
      by_cases hlast : pending.length ≤ 1
      · exact hd.canDeliver_of_relaying hflows (if_pos hlast)
      · have hnext : ({ c with relay := s }.writeLeftover pending 1).phase =
            .leftover (pending.drop 1) := if_neg hlast
        refine ih hd hflows (by simp [hnext]) _ hnext ?_
        rw [List.length_drop, hlen, Nat.add_sub_cancel]

theorem flowing_of_run {client server : Socket} {now : Instant} {acts : List ConnectionAction}
    (hclient : 0 < client.outCapacity) (hserver : 0 < server.outCapacity)
    (h : (system p leftover client server now).run acts = some c)
    (hfaults : ∀ act ∈ acts, act.isFault = false) : Flowing p c.relay ∧ c.phase ≠ .failed := by
  refine System.run_induction (S := system p leftover client server now)
    (P := fun acts c => (∀ act ∈ acts, act.isFault = false) →
      Flowing p c.relay ∧ c.phase ≠ .failed) ?_ ?_ acts c h hfaults
  · intro _
    refine ⟨flowing_initial p now hclient hserver, ?_⟩
    simp only [system, start]
    split_ifs <;> exact Phase.noConfusion
  · intro acts c act d hrun hc hstep hfaults
    obtain ⟨hflows, hphase⟩ := hc fun a ha => hfaults a (List.mem_append_left _ ha)
    exact (inv_of_run hrun).flowing_step hflows hphase (hfaults act (by simp)) hstep

end Preservation

/-- From the handover on the server sends the bytes of `unread` and then closes. -/
def Feeds (c : Connection) (unread : Bytes) : Prop :=
  (c.relay.ends .server).sent <+: unread ∧
    ((c.relay.ends .server).fin = true → (c.relay.ends .server).sent = unread)

end Connection

/-- The start of a tunnel over HTTP CONNECT, for one stream of the upstream. -/
structure TunnelStart (stream : Bytes) (o : Dialogue.Outcome Op String Bytes) : Prop where
  /-- The chunks do not matter. -/
  chunking : restOf o = connectOutcome stream
  accepted : (∃ leftover, o.result = .ok leftover) ↔
    ∃ header payload, SplitsAtFirst stream header payload ∧
      header.length + 4 ≤ maxResponseSize ∧ (fromUtf8 header).isSome ∧ StatusAccepted header
  /-- The leftover and the unread bytes are what is behind the header. -/
  leftover : ∀ leftover, o.result = .ok leftover → ∀ header payload,
    SplitsAtFirst stream header payload → leftover ++ o.unread = payload
  /-- The client is sent a prefix of the payload at any time, and all of it at the end. -/
  delivered : ∀ leftover, o.result = .ok leftover → ∀ header payload,
    SplitsAtFirst stream header payload → ∀ p client server now acts c,
      (Connection.system p leftover client server now).run acts = some c → c.Feeds o.unread →
        c.delivered <+: payload ∧ ∀ a b, c.relay.task = .finished a b →
          c.relay.graceFired = false → c.delivered = payload
  /-- What is still to be written of the leftover is written as far as there is room. -/
  writes : ∀ leftover, o.result = .ok leftover → ∀ p client server now acts c,
    (Connection.system p leftover client server now).run acts = some c →
      ∀ pending, c.phase = .leftover pending → c.delivered ++ pending = leftover ∧
        ∀ n, 0 < n → n ≤ pending.length → n ≤ (c.relay.ends .client).room →
          ∃ d, Connection.step p c (.writeLeftover n) = some d ∧
            d.delivered = c.delivered ++ pending.take n
  /-- Unless an error came or the grace timer fired, the leftover and all that the server has
  sent come to the client as long as the peers take what is written to them. -/
  progress : ∀ leftover, o.result = .ok leftover → ∀ p client server now acts c,
    (Connection.system p leftover client server now).run acts = some c →
      (∀ act ∈ acts, act.isFault = false) → 0 < client.outCapacity → 0 < server.outCapacity →
        c.CanDeliver p (leftover ++ (c.relay.ends .server).sent)

/-- Every stream, however it is split, gives a tunnel that starts behind the header. -/
theorem handshakeHttpConnect_tunnelStart (dest : SocketAddr) (hostname : Option String)
    (split : ℕ → ℕ) (stream : Bytes) : TunnelStart stream
      ((handshakeHttpConnect dest hostname).run ioError (.clean split) 0 stream) := by
  have hrest := run_handshakeHttpConnect dest hostname split stream
  generalize (handshakeHttpConnect dest hostname).run ioError (.clean split) 0 stream = o at hrest
  have hpayload : ∀ leftover, o.result = .ok leftover → ∀ header payload,
      SplitsAtFirst stream header payload → leftover ++ o.unread = payload := by
    intro leftover hok header payload hsplit
    have houtcome : connectOutcome stream = .ok (leftover ++ o.unread) := by
      rw [← hrest, restOf, hok]
      rfl
    obtain ⟨header', hsplit', _⟩ := connectOutcome_eq_ok_iff.mp houtcome
    exact hsplit'.unique hsplit
  refine ⟨hrest, ?_, hpayload, ?_, ?_, ?_⟩
  · have hok : (∃ leftover, o.result = .ok leftover) ↔
        ∃ payload, connectOutcome stream = .ok payload := by
      rw [← hrest, restOf]
      cases o.result with
      | error e => simp [Except.map]
      | ok leftover => simp [Except.map]
    rw [hok]
    simp only [connectOutcome_eq_ok_iff]
    exact exists_comm
  · intro leftover hok header payload hsplit p client server now acts c hrun hfeeds
    have hc := Connection.inv_of_run hrun
    obtain rfl := hpayload leftover hok header payload hsplit
    refine ⟨hc.delivered_prefix.trans ?_, fun a b htask hfired => ?_⟩
    · exact (List.prefix_append_right_inj leftover).mpr hfeeds.1
    · obtain ⟨hfin, hall⟩ := hc.delivered_eq htask hfired
      rw [hall, hfeeds.2 hfin]
  · intro leftover _ p client server now acts c hrun pending hphase
    have hc := Connection.inv_of_run hrun
    exact ⟨hc.pending hphase, fun n => hc.exists_writeLeftover hphase⟩
  · intro leftover _ p client server now acts c hrun hfaults hclient hserver
    obtain ⟨hflows, hphase⟩ := Connection.flowing_of_run hclient hserver hrun hfaults
    exact (Connection.inv_of_run hrun).canDeliver hflows hphase

end TransProxy.Proxy
