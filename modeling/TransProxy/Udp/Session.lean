import TransProxy.Dns.Table
import TransProxy.Library.Transition
import TransProxy.Tunnel.Socks5

/-!
# The sessions of the UDP relay

`dispatch` runs under the lock of the session map and is one step. A session task
moves from one await to the next in one step, and its `select!` polls one arm in a
step, in the order of the source. A sender is kept in the map only, so the number of
its session stands for it there. The fields below the history mark are never read.
-/
namespace TransProxy.Udp
open Library Net Dns Tunnel

def sessionIdleTimeout : ℕ := fromSecs 60

def maxUdpSize : ℕ := 65535

abbrev SessionKey := SocketAddr × SocketAddr

/-- The arms of the `select!`. -/
inductive Arm where
  | recv
  | relay
  | control
  | idle
deriving DecidableEq

/-- What the loop works with. -/
structure Loop where
  hostname : Option String
  /-- What the proxy still sends on the control connection. -/
  control : Bytes
  /-- The beginning of the iteration, from which the idle timer runs. -/
  armed : Instant

inductive Phase where
  /-- In `udp_associate`. -/
  | associating
  | opening (relayAddr : SocketAddr) (control : Bytes)
  | polling (arm : Arm) (loop : Loop)
  /-- In `relay.send`. -/
  | sending (pkt : Bytes) (loop : Loop)
  /-- In `reply.send_to`. -/
  | replying (datagram : Bytes) (loop : Loop)
  /-- `run_session` is over, `sessions.remove` is not. -/
  | returned
  | finished

def Phase.isOpen : Phase → Bool
  | .returned | .finished => false
  | _ => true

/-- In the loop of `run_session`. -/
def Phase.inLoop : Phase → Bool
  | .polling _ _ | .sending _ _ | .replying _ _ => true
  | _ => false

structure Session where
  key : SessionKey
  phase : Phase
  /-- Sent and not received yet. -/
  channel : List Bytes
  -- history
  received : List Bytes
  relayed : List Bytes
  replied : List Bytes

/-- What an await or the poll of a socket comes to. -/
inductive Poll (α : Type) where
  | pending
  | failed
  | ready (a : α)

inductive SessionAction where
  /-- The connection to the proxy and the handshake on it. -/
  | associate (connected : Bool) (net : Dialogue.Network) (stream : Bytes)
  | openSockets (ok : Bool)
  | pollRecv
  | pollRelay (datagram : Poll Bytes)
  | pollControl (readable : Poll Unit)
  | pollIdle
  | sent (ok : Bool)
  | replied (ok : Bool)

namespace Session

/-- The task starts with the first payload in its channel. -/
def spawn (key : SessionKey) (payload : Bytes) : Session :=
  { key, phase := .associating, channel := [payload], received := [], relayed := [], replied := [] }

def push (session : Session) (payload : Bytes) : Session :=
  { session with channel := session.channel ++ [payload] }

/-- `run_session` returns and drops what is in the channel. -/
def exit (session : Session) : Session := { session with phase := .returned, channel := [] }

/-- Begin an iteration of the loop. -/
def iterate (session : Session) (loop : Loop) (now : Instant) : Session :=
  { session with phase := .polling .recv { loop with armed := now } }

/-- A step of `run_session`, which sees whether its sender is still in the map. -/
def step (proxy : UpstreamProxy) (hasSender : Bool) (table : DnsTable) (now : Instant)
    (session : Session) : SessionAction → Option Session
  | .associate connected net stream =>
    match session.phase with
    | .associating =>
      let o := (udpAssociate proxy).run ioError net 0 stream
      match connected, o.result with
      | true, .ok relayAddr => some { session with phase := .opening relayAddr o.unread }
      | _, _ => some session.exit
    | _ => none
  | .openSockets ok =>
    match session.phase with
    | .opening _ control =>
      let loop : Loop := { hostname := table.lookup session.key.2.ip now, control, armed := now }
      some (if ok then session.iterate loop now else session.exit)
    | _ => none
  | .pollRecv =>
    match session.phase with
    | .polling .recv loop =>
      match session.channel with
      | payload :: rest =>
        let pkt := encodeSocks5Udp session.key.2 loop.hostname payload
        some { session with
          phase := .sending pkt loop
          channel := rest
          received := session.received ++ [payload] }
      | [] =>
        some (if hasSender then { session with phase := .polling .relay loop } else session.exit)
    | _ => none
  | .pollRelay datagram =>
    match session.phase with
    | .polling .relay loop =>
      match datagram with
      | .pending => some { session with phase := .polling .control loop }
      | .failed => some session.exit
      | .ready data =>
        let rbuf := data.take maxUdpSize
        match socks5UdpPayloadOffset rbuf with
        | some off => some { session with phase := .replying (rbuf.drop off) loop }
        | none => some (session.iterate loop now)
    | _ => none
  | .pollControl readable =>
    match session.phase with
    | .polling .control loop =>
      match readable with
      | .pending => some { session with phase := .polling .idle loop }
      | .failed => some session.exit
      | .ready () =>
        match loop.control with
        | [] => some session.exit
        | _ :: rest => some (session.iterate { loop with control := rest } now)
    | _ => none
  | .pollIdle =>
    match session.phase with
    | .polling .idle loop =>
      -- a wakeup polls from the first arm on, with the timer of the same iteration
      some (if loop.armed + sessionIdleTimeout ≤ now then session.exit
        else { session with phase := .polling .recv loop })
    | _ => none
  | .sent ok =>
    match session.phase with
    | .sending pkt loop =>
      some (if ok then { session.iterate loop now with relayed := session.relayed ++ [pkt] }
        else session.exit)
    | _ => none
  | .replied ok =>
    match session.phase with
    | .replying datagram loop =>
      let session' := session.iterate loop now
      some (if ok then { session' with replied := session.replied ++ [datagram] } else session')
    | _ => none

def inbox (session : Session) : List Bytes := session.received ++ session.channel

@[simp] theorem isOpen_exit (session : Session) : session.exit.phase.isOpen = false := rfl

@[simp] theorem isOpen_iterate (session : Session) (loop : Loop) (now : Instant) :
    (session.iterate loop now).phase.isOpen = true := rfl

@[simp] theorem inbox_iterate (session : Session) (loop : Loop) (now : Instant) :
    (session.iterate loop now).inbox = session.inbox := rfl

@[simp] theorem inbox_push (session : Session) (payload : Bytes) :
    (session.push payload).inbox = session.inbox ++ [payload] := by
  simp [inbox, push]

/-- The key stays, and until the session returns nothing of its channel is lost. -/
structure Continues (session session' : Session) : Prop where
  key : session'.key = session.key
  isOpen : session'.phase.isOpen = true → session.phase.isOpen = true
  inbox : session'.phase.isOpen = true → session'.inbox = session.inbox

theorem continues_exit (session : Session) : Continues session session.exit :=
  ⟨rfl, by simp, by simp⟩

theorem continues_iterate {session : Session} (h : session.phase.isOpen = true) (loop : Loop)
    (now : Instant) : Continues session (session.iterate loop now) :=
  ⟨rfl, fun _ => h, by simp⟩

theorem continues_phase {session : Session} (h : session.phase.isOpen = true) (phase : Phase) :
    Continues session { session with phase } :=
  ⟨rfl, fun _ => h, fun _ => rfl⟩

section Step
variable {proxy : UpstreamProxy} {hasSender : Bool} {table : DnsTable} {now : Instant}
  {session session' : Session} {act : SessionAction}

theorem isOpen_of_step (h : session.step proxy hasSender table now act = some session') :
    session.phase.isOpen = true := by
  cases hphase : session.phase with
  | returned => cases act <;> simp [step, hphase] at h
  | finished => cases act <;> simp [step, hphase] at h
  | _ => rfl

theorem step_associate {connected : Bool} {net : Dialogue.Network} {stream : Bytes}
    (h : session.step proxy hasSender table now (.associate connected net stream) = some session') :
    session.phase = .associating ∧ (session' = session.exit ∨
      ∃ relayAddr control, session' = { session with phase := .opening relayAddr control }) := by
  simp only [step] at h
  split at h
  next hphase =>
    refine ⟨hphase, ?_⟩
    split at h
    · cases h
      exact .inr ⟨_, _, rfl⟩
    · cases h
      exact .inl rfl
  next => cases h

theorem step_openSockets {ok : Bool}
    (h : session.step proxy hasSender table now (.openSockets ok) = some session') :
    ∃ relayAddr control, session.phase = .opening relayAddr control ∧
      session' = if ok then
        session.iterate ⟨table.lookup session.key.2.ip now, control, now⟩ now else session.exit := by
  simp only [step] at h
  split at h
  next hphase => exact ⟨_, _, hphase, (Option.some.inj h).symm⟩
  next => cases h

theorem step_pollRecv (h : session.step proxy hasSender table now .pollRecv = some session') :
    ∃ loop, session.phase = .polling .recv loop ∧
      ((∃ payload rest, session.channel = payload :: rest ∧ session' = { session with
          phase := .sending (encodeSocks5Udp session.key.2 loop.hostname payload) loop
          channel := rest
          received := session.received ++ [payload] }) ∨
        session.channel = [] ∧ session' =
          if hasSender then { session with phase := .polling .relay loop } else session.exit) := by
  simp only [step] at h
  split at h
  next loop hphase =>
    refine ⟨loop, hphase, ?_⟩
    split at h
    next payload rest hchannel => exact .inl ⟨payload, rest, hchannel, (Option.some.inj h).symm⟩
    next hchannel => exact .inr ⟨hchannel, (Option.some.inj h).symm⟩
  next => cases h

theorem step_pollRelay {datagram : Poll Bytes}
    (h : session.step proxy hasSender table now (.pollRelay datagram) = some session') :
    ∃ loop, session.phase = .polling .relay loop ∧
      (datagram = .pending ∧ session' = { session with phase := .polling .control loop } ∨
        datagram = .failed ∧ session' = session.exit ∨
        ∃ data, datagram = .ready data ∧
          ((∃ off, socks5UdpPayloadOffset (data.take maxUdpSize) = some off ∧
            session' = { session with
              phase := .replying ((data.take maxUdpSize).drop off) loop }) ∨
            socks5UdpPayloadOffset (data.take maxUdpSize) = none ∧
              session' = session.iterate loop now)) := by
  simp only [step] at h
  split at h
  next loop hphase =>
    refine ⟨loop, hphase, ?_⟩
    cases datagram with
    | pending => exact .inl ⟨rfl, (Option.some.inj h).symm⟩
    | failed => exact .inr (.inl ⟨rfl, (Option.some.inj h).symm⟩)
    | ready data =>
      refine .inr (.inr ⟨data, rfl, ?_⟩)
      dsimp only at h
      split at h
      next off hoff => exact .inl ⟨off, hoff, (Option.some.inj h).symm⟩
      next hnone => exact .inr ⟨hnone, (Option.some.inj h).symm⟩
  next => cases h

theorem step_pollControl {readable : Poll Unit}
    (h : session.step proxy hasSender table now (.pollControl readable) = some session') :
    ∃ loop, session.phase = .polling .control loop ∧
      (readable = .pending ∧ session' = { session with phase := .polling .idle loop } ∨
        readable ≠ .pending ∧ session' = session.exit ∨
        ∃ byte rest, readable = .ready () ∧ loop.control = byte :: rest ∧
          session' = session.iterate { loop with control := rest } now) := by
  simp only [step] at h
  split at h
  next loop hphase =>
    refine ⟨loop, hphase, ?_⟩
    cases readable with
    | pending => exact .inl ⟨rfl, (Option.some.inj h).symm⟩
    | failed => exact .inr (.inl ⟨by simp, (Option.some.inj h).symm⟩)
    | ready data =>
      dsimp only at h
      split at h
      next => exact .inr (.inl ⟨by simp, (Option.some.inj h).symm⟩)
      next byte rest hcontrol =>
        exact .inr (.inr ⟨byte, rest, rfl, hcontrol, (Option.some.inj h).symm⟩)
  next => cases h

theorem step_pollIdle (h : session.step proxy hasSender table now .pollIdle = some session') :
    ∃ loop, session.phase = .polling .idle loop ∧
      session' = if loop.armed + sessionIdleTimeout ≤ now then session.exit
        else { session with phase := .polling .recv loop } := by
  simp only [step] at h
  split at h
  next loop hphase => exact ⟨loop, hphase, (Option.some.inj h).symm⟩
  next => cases h

theorem step_sent {ok : Bool}
    (h : session.step proxy hasSender table now (.sent ok) = some session') :
    ∃ pkt loop, session.phase = .sending pkt loop ∧
      session' = if ok then { session.iterate loop now with relayed := session.relayed ++ [pkt] }
        else session.exit := by
  simp only [step] at h
  split at h
  next pkt loop hphase => exact ⟨pkt, loop, hphase, (Option.some.inj h).symm⟩
  next => cases h

theorem step_replied {ok : Bool}
    (h : session.step proxy hasSender table now (.replied ok) = some session') :
    ∃ datagram loop, session.phase = .replying datagram loop ∧
      session' = if ok then
        { session.iterate loop now with replied := session.replied ++ [datagram] }
        else session.iterate loop now := by
  simp only [step] at h
  split at h
  next datagram loop hphase => exact ⟨datagram, loop, hphase, (Option.some.inj h).symm⟩
  next => cases h

/-- Every step of a session continues it. -/
theorem continues_step (h : session.step proxy hasSender table now act = some session') :
    Continues session session' := by
  have hopen := isOpen_of_step h
  have hexit := continues_exit session
  cases act with
  | associate connected net stream =>
    obtain ⟨_, rfl | ⟨relayAddr, control, rfl⟩⟩ := step_associate h
    · exact hexit
    · exact continues_phase hopen _
  | openSockets ok =>
    obtain ⟨_, _, _, rfl⟩ := step_openSockets h
    split_ifs
    · exact continues_iterate hopen _ _
    · exact hexit
  | pollRecv =>
    obtain ⟨loop, _, ⟨payload, rest, hchannel, rfl⟩ | ⟨_, rfl⟩⟩ := step_pollRecv h
    · exact ⟨rfl, fun _ => hopen, fun _ => by simp [inbox, hchannel]⟩
    · split_ifs
      · exact continues_phase hopen _
      · exact hexit
  | pollRelay datagram =>
    obtain ⟨loop, _, ⟨_, rfl⟩ | ⟨_, rfl⟩ | ⟨data, _, ⟨_, _, rfl⟩ | ⟨_, rfl⟩⟩⟩ := step_pollRelay h
    · exact continues_phase hopen _
    · exact hexit
    · exact continues_phase hopen _
    · exact continues_iterate hopen _ _
  | pollControl readable =>
    obtain ⟨loop, _, ⟨_, rfl⟩ | ⟨_, rfl⟩ | ⟨_, _, _, _, rfl⟩⟩ := step_pollControl h
    · exact continues_phase hopen _
    · exact hexit
    · exact continues_iterate hopen _ _
  | pollIdle =>
    obtain ⟨loop, _, rfl⟩ := step_pollIdle h
    split_ifs
    · exact hexit
    · exact continues_phase hopen _
  | sent ok =>
    obtain ⟨pkt, loop, _, rfl⟩ := step_sent h
    split_ifs
    · exact ⟨rfl, fun _ => hopen, fun _ => rfl⟩
    · exact hexit
  | replied ok =>
    obtain ⟨datagram, loop, _, rfl⟩ := step_replied h
    split_ifs
    · exact ⟨rfl, fun _ => hopen, fun _ => rfl⟩
    · exact continues_iterate hopen _ _

end Step

end Session

structure State where
  now : Instant
  table : DnsTable
  map : HashMap SessionKey ℕ
  sessions : List Session

inductive Action where
  | tick (d : ℕ)
  /-- Another task writes to the table. -/
  | setTable (table : DnsTable)
  | dispatch (client origDst : SocketAddr) (payload : Bytes)
  | session (i : ℕ) (act : SessionAction)
  /-- The lock section at the end of a task. -/
  | remove (i : ℕ)

namespace State

/-- Whether a send to the session succeeds. -/
def isOpen (s : State) (i : ℕ) : Bool := (s.sessions[i]?).any (·.phase.isOpen)

def dispatch (s : State) (client origDst : SocketAddr) (payload : Bytes) : State :=
  let key := (client, origDst)
  match s.map.lookup key with
  | some i =>
    if s.isOpen i then { s with sessions := s.sessions.modify i (·.push payload) }
    else { s with map := s.map.erase key }
  | none =>
    { s with
      map := s.map.insert key s.sessions.length
      sessions := s.sessions ++ [.spawn key payload] }

def step (proxy : UpstreamProxy) (s : State) : Action → Option State
  | .tick d => some { s with now := s.now + d }
  | .setTable table => some { s with table }
  | .dispatch client origDst payload => some (s.dispatch client origDst payload)
  | .session i act =>
    match s.sessions[i]? with
    | some session =>
      let hasSender := decide (s.map.lookup session.key = some i)
      (session.step proxy hasSender s.table s.now act).map
        (fun session => { s with sessions := s.sessions.set i session })
    | none => none
  | .remove i =>
    match s.sessions[i]? with
    | some session =>
      match session.phase with
      | .returned =>
        some { s with
          map := s.map.erase session.key
          sessions := s.sessions.set i { session with phase := .finished } }
      | _ => none
    | none => none

end State

def initial (now : Instant) (table : DnsTable) : State :=
  { now, table, map := ∅, sessions := [] }

def system (proxy : UpstreamProxy) (now : Instant) (table : DnsTable) : System State Action :=
  { init := initial now table, step := State.step proxy }

end TransProxy.Udp
