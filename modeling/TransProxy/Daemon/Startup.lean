import TransProxy.Library.Bytes
import TransProxy.Library.Transition

/-!
# Becoming a daemon

The process that was started waits at the read end of a pipe, its child leaves the session and
forks again, and the grandchild goes on as the daemon. Each system call is one step, whose outcome
is chosen by the action, and each process may be killed between its steps. Who holds an end of the
pipe follows from where the processes are. Errors are the texts of their chains of contexts.
-/
namespace TransProxy.Daemon
open Library

def daemonReady : UInt8 := 0

def daemonFailed : UInt8 := 1

def statusResult (status : UInt8) : Except String Unit :=
  if status = daemonReady then .ok ()
  else if status = daemonFailed then .error "Daemon child failed during startup"
  else .error ("Daemon child reported unknown startup status " ++ toString status.toNat)

inductive Launcher where
  | opening
  | forking
  | closingWrite
  /-- In `wait_for_daemon_status`. -/
  | reading
  /-- In `waitpid`, with what `wait_for_daemon_status` returned. -/
  | waiting (result : Except String Unit)
  | ended (result : Except String Unit)
  | killed

inductive Child where
  | absent
  | closingRead
  | leaving
  | forking
  /-- In `signal_daemon_status`, of which the write and the close are steps of their own. -/
  | signaling (error : String)
  | closing (error : String)
  | detaching
  | ended (result : Except String Unit)
  | killed

inductive Ending where
  | startup (error : String)
  | runtime (error : String)
  | server (result : Except String Unit) (removed : Bool)

inductive Grandchild where
  | absent
  | writingPid (pid : ℕ)
  | redirecting
  | signaling (result : Except String Unit)
  | closing (result : Except String Unit)
  /-- `daemonize` has returned; the runtime is not made yet. -/
  | running
  | serving
  | cleaning (result : Except String Unit)
  | ended (ending : Ending)
  | killed

structure State where
  launcher : Launcher
  child : Child
  daemon : Grandchild
  /-- Written to the pipe and not read yet. -/
  pipe : Bytes
  pidFile : Option String
  -- history
  sent : Bytes
  /-- The process ID that was written to the file. -/
  recorded : Option ℕ

inductive ReadOutcome where
  | ready
  | interrupted
  | failed (error : String)

inductive Process where
  | launcher
  | child
  | daemon

inductive Action where
  | pipe (r : Except String Unit)
  | fork (r : Except String Unit)
  | closeWrite
  | read (r : ReadOutcome)
  | waitpid (interrupted : Bool)
  | childCloseRead
  | setsid (r : Except String Unit)
  | secondFork (r : Except String ℕ)
  | childSignal (ok : Bool)
  | childClose
  | detach
  /-- A write that fails may leave a part of the text. -/
  | writePid (r : Except (String × Option String) Unit)
  | redirect
  | daemonSignal (ok : Bool)
  | daemonClose
  | runtime (r : Except String Unit)
  | serverEnds (r : Except String Unit)
  | removePid (ok : Bool)
  | kill (p : Process)

/-- `format!("{}\n", pid)`. -/
def pidText (pid : ℕ) : String := toString pid ++ "\n"

def Launcher.holdsWrite : Launcher → Bool
  | .forking | .closingWrite => true
  | _ => false

def Child.holdsWrite : Child → Bool
  | .absent | .ended _ | .killed => false
  | _ => true

def Grandchild.holdsWrite : Grandchild → Bool
  | .writingPid _ | .redirecting | .signaling _ | .closing _ => true
  | _ => false

def State.writeEndOpen (s : State) : Bool :=
  s.launcher.holdsWrite || s.child.holdsWrite || s.daemon.holdsWrite

/-- The child closes its copy first of all, and the launcher as soon as it knows the status. -/
def State.readEndOpen (s : State) : Bool :=
  match s.launcher, s.child with
  | .forking, _ | .closingWrite, _ | .reading, _ | _, .closingRead => true
  | _, _ => false

/-- One byte into the pipe. -/
def State.write (s : State) (ok : Bool) (status : UInt8) : State :=
  if ok then { s with pipe := s.pipe ++ [status], sent := s.sent ++ [status] } else s

def statusOf : Except String Unit → UInt8
  | .ok () => daemonReady
  | .error _ => daemonFailed

def step (path : String) (s : State) : Action → Option State
  | .pipe r =>
    match s.launcher, r with
    | .opening, .ok () => some { s with launcher := .forking }
    | .opening, .error e => some { s with launcher := .ended (.error ("pipe failed: " ++ e)) }
    | _, _ => none
  | .fork r =>
    match s.launcher, r with
    | .forking, .ok () => some { s with launcher := .closingWrite, child := .closingRead }
    | .forking, .error e =>
      some { s with launcher := .ended (.error ("First fork failed: " ++ e)) }
    | _, _ => none
  | .closeWrite =>
    match s.launcher with
    | .closingWrite => some { s with launcher := .reading }
    | _ => none
  | .read r =>
    match s.launcher, r with
    | .reading, .ready =>
      match s.pipe with
      | status :: rest =>
        some { s with pipe := rest, launcher := .waiting (statusResult status) }
      | [] =>
        -- an empty pipe has an end when no process can write to it any more
        if s.writeEndOpen then none
        else
          some { s with
            launcher := .waiting (.error "Daemon child exited before reporting startup status") }
    | .reading, .interrupted => some s
    | .reading, .failed e =>
      some { s with
        launcher := .waiting (.error ("Failed to read daemon startup status: " ++ e)) }
    | _, _ => none
  | .waitpid interrupted =>
    match s.launcher with
    | .waiting result =>
      -- the outcome of `waitpid` is not looked at
      match s.child, interrupted with
      | .ended _, _ | .killed, _ | _, true => some { s with launcher := .ended result }
      | _, _ => none
    | _ => none
  | .childCloseRead =>
    match s.child with
    | .closingRead => some { s with child := .leaving }
    | _ => none
  | .setsid r =>
    match s.child, r with
    | .leaving, .ok () => some { s with child := .forking }
    | .leaving, .error e => some { s with child := .signaling ("setsid failed: " ++ e) }
    | _, _ => none
  | .secondFork r =>
    match s.child, r with
    | .forking, .ok pid => some { s with child := .detaching, daemon := .writingPid pid }
    | .forking, .error e => some { s with child := .signaling ("Second fork failed: " ++ e) }
    | _, _ => none
  | .childSignal ok =>
    match s.child with
    | .signaling e =>
      if ok && !s.readEndOpen then none
      else some { s.write ok daemonFailed with child := .closing e }
    | _ => none
  | .childClose =>
    match s.child with
    | .closing e => some { s with child := .ended (.error e) }
    | _ => none
  | .detach =>
    match s.child with
    | .detaching => some { s with child := .ended (.ok ()) }
    | _ => none
  | .writePid r =>
    match s.daemon, r with
    | .writingPid pid, .ok () =>
      some { s with
        daemon := .redirecting, pidFile := some (pidText pid), recorded := some pid }
    | .writingPid _, .error (e, left) =>
      some { s with
        daemon := .signaling (.error ("Failed to write PID file: " ++ path ++ ": " ++ e))
        pidFile := left }
    | _, _ => none
  | .redirect =>
    match s.daemon with
    | .redirecting => some { s with daemon := .signaling (.ok ()) }
    | _ => none
  | .daemonSignal ok =>
    match s.daemon with
    | .signaling r =>
      if ok && !s.readEndOpen then none
      else some { s.write ok (statusOf r) with daemon := .closing r }
    | _ => none
  | .daemonClose =>
    match s.daemon with
    | .closing (.ok ()) => some { s with daemon := .running }
    | .closing (.error e) => some { s with daemon := .ended (.startup e) }
    | _ => none
  | .runtime r =>
    match s.daemon, r with
    | .running, .ok () => some { s with daemon := .serving }
    | .running, .error e => some { s with daemon := .ended (.runtime e) }
    | _, _ => none
  | .serverEnds r =>
    match s.daemon with
    | .serving => some { s with daemon := .cleaning r }
    | _ => none
  | .removePid ok =>
    match s.daemon with
    | .cleaning r =>
      some { s with
        daemon := .ended (.server r ok), pidFile := if ok then none else s.pidFile }
    | _ => none
  | .kill .launcher =>
    match s.launcher with
    | .ended _ | .killed => none
    | _ => some { s with launcher := .killed }
  | .kill .child =>
    match s.child with
    | .absent | .ended _ | .killed => none
    | _ => some { s with child := .killed }
  | .kill .daemon =>
    match s.daemon with
    | .absent | .ended _ | .killed => none
    | _ => some { s with daemon := .killed }

def initial (pidFile : Option String) : State :=
  { launcher := .opening, child := .absent, daemon := .absent, pipe := [], pidFile, sent := []
    recorded := none }

/-- `path` is where the PID file is to go, and `pidFile` what stands there at the start. -/
def system (path : String) (pidFile : Option String) : System State Action :=
  { init := initial pidFile, step := step path }

end TransProxy.Daemon
