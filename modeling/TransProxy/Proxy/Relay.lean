import Mathlib.Data.Prod.Basic
import TransProxy.Library.Bytes
import TransProxy.Library.Transition
import TransProxy.Net.Addr

/-!
# The relay between client and upstream

`relay_with_shutdown` as a task that is at the `select!` or suspended in an await
of one of its arms. The arms for the two directions have the same code with the
sides exchanged. Each side is a socket with bounded buffers, whose peer sends,
half-closes and accepts bytes as it likes.
-/
namespace TransProxy.Proxy
open Library Net

/-- `inbound` is the client, `outbound` the upstream server. -/
inductive Side where
  | client
  | server
deriving DecidableEq

def Side.other : Side → Side
  | .client => .server
  | .server => .client

@[simp] theorem Side.other_other (side : Side) : side.other.other = side := by cases side <;> rfl

@[simp] theorem Side.other_ne (side : Side) : side.other ≠ side := by cases side <;> decide

@[simp] theorem Side.ne_other (side : Side) : side ≠ side.other := by cases side <;> decide

theorem Side.eq_or_eq_other (a b : Side) : a = b ∨ a = b.other := by
  cases a <;> cases b <;> decide

structure Socket where
  /-- Received and not read yet. -/
  incoming : Bytes
  /-- The peer has shut down its write half. -/
  fin : Bool
  /-- Written and not accepted by the peer yet. -/
  outgoing : Bytes
  inCapacity : ℕ
  outCapacity : ℕ

/-- A socket in the hands of the relay. The history is never read by the relay: what the
peer has sent, and what the relay has taken from it and written to it. -/
structure Endpoint extends Socket where
  /-- The write half was shut down. -/
  shut : Bool
  sent : Bytes
  taken : Bytes
  written : Bytes

/-- The peer may have sent something already, and what was written before may still be
on its way. -/
def Socket.handOver (socket : Socket) : Endpoint :=
  { socket with shut := false, sent := socket.incoming, taken := [], written := [] }

namespace Endpoint

def room (e : Endpoint) : ℕ := e.outCapacity - e.outgoing.length

def read (e : Endpoint) (n : ℕ) : Endpoint :=
  { e with incoming := e.incoming.drop n, taken := e.taken ++ e.incoming.take n }

def write (e : Endpoint) (data : Bytes) : Endpoint :=
  { e with outgoing := e.outgoing ++ data, written := e.written ++ data }

def shutdown (e : Endpoint) : Endpoint := { e with shut := true }

def peerSend (e : Endpoint) (data : Bytes) : Endpoint :=
  { e with incoming := e.incoming ++ data, sent := e.sent ++ data }

def peerFin (e : Endpoint) : Endpoint := { e with fin := true }

def peerAccept (e : Endpoint) (n : ℕ) : Endpoint := { e with outgoing := e.outgoing.drop n }

end Endpoint

/-- The arguments of the relay. Its callers pass constants, none of them empty buffers. -/
structure Params where
  bufSize : ℕ
  bufSize_pos : 0 < bufSize
  gracePeriod : ℕ

inductive Task where
  /-- At the head of the loop or in the `select!`. -/
  | selecting
  /-- In `write_all` of a chunk read from `src`, of which `rest` is still to be written. -/
  | writing (src : Side) (chunk rest : Bytes)
  /-- In the `shutdown` that follows an EOF. -/
  | shutting (dst : Side)
  /-- In the arm of the grace timer, about to close the direction from `src`. -/
  | closing (src : Side)
  | finished (clientBytes serverBytes : UInt64)
  /-- An error of the arm of `src` was returned; `rest` was not written. -/
  | failed (src : Side) (rest : Bytes)
deriving DecidableEq

structure State where
  task : Task
  ends : Side → Endpoint
  /-- `client_eof` and `server_eof`. -/
  eof : Side → Bool
  /-- `client_bytes` and `server_bytes`. -/
  bytes : Side → UInt64
  /-- The deadline of `grace_timer`. -/
  graceTimer : Option Instant
  now : Instant
  -- history
  graceFired : Bool

inductive Action where
  | read (src : Side) (n : ℕ)
  | readEof (src : Side)
  | readError (src : Side)
  /-- One write of `write_all`, with the number of bytes the socket takes. -/
  | write (n : ℕ)
  | writeError
  | shutdown
  | graceExpired
  | close
  | finish
  | peerSend (side : Side) (data : Bytes)
  | peerFin (side : Side)
  | peerAccept (side : Side) (n : ℕ)
  | tick (d : ℕ)

namespace State

def update (s : State) (side : Side) (f : Endpoint → Endpoint) : Side → Endpoint :=
  Function.update s.ends side (f (s.ends side))

/-- `Ok(n)` of a read: the chunk goes to `write_all`. -/
def readChunk (s : State) (src : Side) (n : ℕ) : State :=
  { s with
    task := .writing src ((s.ends src).incoming.take n) ((s.ends src).incoming.take n)
    ends := s.update src (·.read n) }

/-- `Ok(0)` of a read: the timer is started unless the other side came first. -/
def readEof (p : Params) (s : State) (src : Side) : State :=
  { s with
    task := .shutting src.other
    eof := Function.update s.eof src true
    graceTimer :=
      if s.eof src.other = false ∧ s.graceTimer.isNone then some (s.now + p.gracePeriod)
      else s.graceTimer }

/-- A write of `n` bytes; the last one ends the arm and counts the chunk. -/
def writeSome (s : State) (src : Side) (chunk rest : Bytes) (n : ℕ) : State :=
  let s := { s with ends := s.update src.other (·.write (rest.take n)) }
  if rest.length ≤ n then
    { s with
      task := .selecting
      bytes := Function.update s.bytes src (s.bytes src + UInt64.ofNat chunk.length) }
  else { s with task := .writing src chunk (rest.drop n) }

/-- `if !client_eof { wo.shutdown().await; client_eof = true }`, then the other side. -/
def closeOne (s : State) (src : Side) : State :=
  { s with
    task := match src with
      | .client => .closing .server
      | .server => .selecting
    ends := if s.eof src then s.ends else s.update src.other Endpoint.shutdown
    eof := Function.update s.eof src true }

end State

def step (p : Params) (s : State) : Action → Option State
  | .read src n =>
    match s.task with
    | .selecting =>
      if s.eof src = false ∧ 0 < n ∧ n ≤ p.bufSize ∧ n ≤ (s.ends src).incoming.length then
        some (s.readChunk src n)
      else none
    | _ => none
  | .readEof src =>
    match s.task with
    | .selecting =>
      if s.eof src = false ∧ (s.ends src).incoming = [] ∧ (s.ends src).fin = true then
        some (s.readEof p src)
      else none
    | _ => none
  | .readError src =>
    match s.task with
    | .selecting => if s.eof src = false then some { s with task := .failed src [] } else none
    | _ => none
  | .write n =>
    match s.task with
    | .writing src chunk rest =>
      if 0 < n ∧ n ≤ rest.length ∧ n ≤ (s.ends src.other).room then
        some (s.writeSome src chunk rest n)
      else none
    | _ => none
  | .writeError =>
    match s.task with
    | .writing src _ rest => some { s with task := .failed src rest }
    | _ => none
  | .shutdown =>
    match s.task with
    | .shutting dst => some { s with task := .selecting, ends := s.update dst Endpoint.shutdown }
    | _ => none
  | .graceExpired =>
    match s.task, s.graceTimer with
    | .selecting, some deadline =>
      if deadline ≤ s.now ∧ ¬ (s.eof .client = true ∧ s.eof .server = true) then
        some { s with task := .closing .client, graceFired := true }
      else none
    | _, _ => none
  | .close =>
    match s.task with
    | .closing src => some (s.closeOne src)
    | _ => none
  | .finish =>
    match s.task with
    | .selecting =>
      if s.eof .client = true ∧ s.eof .server = true then
        some { s with task := .finished (s.bytes .client) (s.bytes .server) }
      else none
    | _ => none
  | .peerSend side data =>
    if (s.ends side).fin = false ∧
        (s.ends side).incoming.length + data.length ≤ (s.ends side).inCapacity then
      some { s with ends := s.update side (·.peerSend data) }
    else none
  | .peerFin side => some { s with ends := s.update side Endpoint.peerFin }
  | .peerAccept side n => some { s with ends := s.update side (·.peerAccept n) }
  | .tick d => some { s with now := s.now + d }

def initial (client server : Socket) (now : Instant) : State :=
  { task := .selecting
    ends := fun side => match side with
      | .client => client.handOver
      | .server => server.handOver
    eof := fun _ => false
    bytes := fun _ => 0
    graceTimer := none
    now
    graceFired := false }

def system (p : Params) (client server : Socket) (now : Instant) : System State Action :=
  { init := initial client server now, step := step p }

section Inversion
variable {p : Params} {s t : State}

theorem step_read_iff {src : Side} {n : ℕ} :
    step p s (.read src n) = some t ↔ s.task = .selecting ∧ (s.eof src = false ∧ 0 < n ∧
      n ≤ p.bufSize ∧ n ≤ (s.ends src).incoming.length) ∧ s.readChunk src n = t := by
  cases h : s.task <;> simp [step, h]

theorem step_readEof_iff {src : Side} :
    step p s (.readEof src) = some t ↔ s.task = .selecting ∧ (s.eof src = false ∧
      (s.ends src).incoming = [] ∧ (s.ends src).fin = true) ∧ s.readEof p src = t := by
  cases h : s.task <;> simp [step, h]

theorem step_readError_iff {src : Side} :
    step p s (.readError src) = some t ↔ s.task = .selecting ∧ s.eof src = false ∧
      { s with task := .failed src [] } = t := by
  cases h : s.task <;> simp [step, h]

theorem step_write_iff {n : ℕ} :
    step p s (.write n) = some t ↔ ∃ src chunk rest, s.task = .writing src chunk rest ∧
      (0 < n ∧ n ≤ rest.length ∧ n ≤ (s.ends src.other).room) ∧
        s.writeSome src chunk rest n = t := by
  cases h : s.task <;> simp [step, h]

theorem step_writeError_iff :
    step p s .writeError = some t ↔ ∃ src chunk rest, s.task = .writing src chunk rest ∧
      { s with task := .failed src rest } = t := by
  cases h : s.task <;> simp [step, h]

theorem step_shutdown_iff :
    step p s .shutdown = some t ↔ ∃ dst, s.task = .shutting dst ∧
      { s with task := .selecting, ends := s.update dst Endpoint.shutdown } = t := by
  cases h : s.task <;> simp [step, h]

theorem step_graceExpired_iff :
    step p s .graceExpired = some t ↔ ∃ deadline, s.task = .selecting ∧
      s.graceTimer = some deadline ∧
      (deadline ≤ s.now ∧ ¬ (s.eof .client = true ∧ s.eof .server = true)) ∧
        { s with task := .closing .client, graceFired := true } = t := by
  cases h : s.task <;> cases h' : s.graceTimer <;> simp [step, h, h']

theorem step_close_iff :
    step p s .close = some t ↔ ∃ src, s.task = .closing src ∧ s.closeOne src = t := by
  cases h : s.task <;> simp [step, h]

theorem step_finish_iff :
    step p s .finish = some t ↔ s.task = .selecting ∧
      (s.eof .client = true ∧ s.eof .server = true) ∧
        { s with task := .finished (s.bytes .client) (s.bytes .server) } = t := by
  cases h : s.task <;> simp [step, h]

theorem step_peerSend_iff {side : Side} {data : Bytes} :
    step p s (.peerSend side data) = some t ↔ ((s.ends side).fin = false ∧
      (s.ends side).incoming.length + data.length ≤ (s.ends side).inCapacity) ∧
        { s with ends := s.update side (·.peerSend data) } = t := by
  simp [step]

end Inversion

end TransProxy.Proxy
