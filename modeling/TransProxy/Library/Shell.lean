import Mathlib.Data.List.Basic

/-!
# Commands that a service manager or a shell runs

A script is a list of statements that the shell executes in order: `set -e`,
`trap … EXIT`, commands, and `exec` of a program given by its path. A supervised unit is a
command before the process, the process and a command after it. When a command ends, and
how, is up to the environment, and so are the signals. A signal reaches the shell alone:
the command that it waits for goes on without it.
-/
namespace TransProxy.Library
variable {γ π : Type*}

inductive Status where
  | code (n : ℕ)
  | signal (n : ℕ)
deriving DecidableEq

def Status.Success (status : Status) : Prop := status = .code 0

instance (status : Status) : Decidable status.Success := inferInstanceAs (Decidable (_ = _))

inductive JobEvent where
  /-- The command that is waited for ends. -/
  | ends (status : Status)
  /-- The outcome of an `exec`. -/
  | exec (ok : Bool)
  /-- A signal at which a shell still runs its trap. -/
  | signal
  /-- A signal at which it does not. -/
  | kill

inductive Entry (γ : Type*) where
  | starts (c : γ)
  | ends (c : γ)

def Entry.command : Entry γ → γ
  | .starts c => c
  | .ends c => c

/-- A step of a process: what is recorded, and which commands are left without it. -/
structure Move (π γ : Type*) where
  next : π
  log : List (Entry γ) := []
  left : List γ := []

def Move.map {ρ : Type*} (f : π → ρ) (m : Move π γ) : Move ρ γ :=
  { next := f m.next, log := m.log, left := m.left }

/-- Wherever an entry of the one kind stands, the next one stands behind it. -/
def Followed (P : γ → Prop) (next : γ) : List γ → Prop
  | [] => True
  | a :: log => (P a → next ∈ log) ∧ Followed P next log

theorem followed_append {P : γ → Prop} {next : γ} (log more : List γ) :
    Followed P next (log ++ more) ↔
      (next ∈ more ∨ Followed P next log) ∧ Followed P next more := by
  induction log with
  | nil => simp [Followed]
  | cons a log ih =>
    simp only [List.cons_append, Followed, ih, List.mem_append]
    tauto

inductive Stmt (γ : Type*) where
  /-- `set -e`. -/
  | errexit
  /-- `trap … EXIT`. -/
  | trapExit (body : List γ)
  | run (c : γ)
  | exec (c : γ)

namespace Shell

/-- The process that was started as a shell. -/
inductive Proc (γ : Type*) where
  /-- The shell waits for a command. -/
  | running (c : γ) (rest : List (Stmt γ)) (errexit : Bool) (trap : List γ)
  | execing (c : γ) (errexit : Bool) (trap : List γ)
  /-- The shell waits for a command of its trap. -/
  | trapping (c : γ) (rest : List γ) (errexit : Bool)
  /-- The process runs the command in place of the shell. -/
  | replaced (c : γ)
  | ended

/-- The shell exits, by way of its trap. -/
def exit (errexit : Bool) : List γ → Move (Proc γ) γ
  | [] => { next := .ended }
  | c :: rest => { next := .trapping c rest errexit, log := [.starts c] }

/-- The shell executes statements up to the next command. -/
def advance : List (Stmt γ) → Bool → List γ → Move (Proc γ) γ
  | [], errexit, trap => exit errexit trap
  | .errexit :: rest, _, trap => advance rest true trap
  | .trapExit body :: rest, errexit, _ => advance rest errexit body
  | .run c :: rest, errexit, trap =>
    { next := .running c rest errexit trap, log := [.starts c] }
  | .exec c :: _, errexit, trap => { next := .execing c errexit trap }

def launch (script : List (Stmt γ)) : Move (Proc γ) γ := advance script false []

def endOf (c : γ) (m : Move (Proc γ) γ) : Move (Proc γ) γ := { m with log := .ends c :: m.log }

def step : Proc γ → JobEvent → Option (Move (Proc γ) γ)
  | .running c rest errexit trap, .ends status =>
    if errexit = true ∧ ¬ status.Success then some (endOf c (exit errexit trap))
    else some (endOf c (advance rest errexit trap))
  -- The trap runs at once, while the command goes on.
  | .running c _ errexit trap, .signal => some { exit errexit trap with left := [c] }
  | .running c _ _ _, .kill => some { next := .ended, left := [c] }
  -- The trap is dropped before the program is executed, and without the program the shell ends.
  | .execing c _ _, .exec true => some { next := .replaced c, log := [.starts c] }
  | .execing _ _ _, .exec false => some { next := .ended }
  | .execing _ errexit trap, .signal => some (exit errexit trap)
  | .execing _ _ _, .kill => some { next := .ended }
  | .trapping c rest errexit, .ends status =>
    if errexit = true ∧ ¬ status.Success then some (endOf c { next := .ended })
    else some (endOf c (exit errexit rest))
  | .trapping c _ _, .signal => some { next := .ended, left := [c] }
  | .trapping c _ _, .kill => some { next := .ended, left := [c] }
  | .replaced c, .ends _ => some (endOf c { next := .ended })
  | .replaced c, .signal => some { next := .replaced c }
  | .replaced c, .kill => some (endOf c { next := .ended })
  | _, _ => none

end Shell

/-- The commands of a unit: before the process, the process, and after it. -/
structure Supervised (γ : Type*) where
  startPre : γ
  start : γ
  stopPost : γ

namespace Supervised

inductive Phase where
  | dead
  /-- The manager waits for the command before the process. -/
  | startPre (signalled : Bool)
  | running
  | stopPost

variable (u : Supervised γ)

def launch : Move Phase γ := { next := .startPre false, log := [.starts u.startPre] }

/-- The manager signals what it waits for. Behind a stop and behind a start that failed, the
last command is run. -/
def step : Phase → JobEvent → Option (Move Phase γ)
  | .startPre _, .signal => some { next := .startPre true }
  | .startPre _, .kill => some { next := .startPre true }
  | .startPre signalled, .ends status =>
    if signalled = true ∨ ¬ status.Success then
      some { next := .stopPost, log := [.ends u.startPre, .starts u.stopPost] }
    else some { next := .running, log := [.ends u.startPre, .starts u.start] }
  | .running, .ends _ => some { next := .stopPost, log := [.ends u.start, .starts u.stopPost] }
  | .running, .signal => some { next := .running }
  | .running, .kill => some { next := .running }
  | .stopPost, .ends _ => some { next := .dead, log := [.ends u.stopPost] }
  | .stopPost, .signal => some { next := .stopPost }
  | .stopPost, .kill => some { next := .stopPost }
  | _, _ => none

/-- The unit is dead only behind its last command. -/
def Phase.Covered (u : Supervised γ) (log : List (Entry γ)) : Phase → Prop
  | .dead => Followed (·.command = u.startPre) (.starts u.stopPost) log
  | .stopPost => Followed (·.command = u.startPre) (.starts u.stopPost) log
  | _ => True

section Covered
variable {u : Supervised γ} {phase : Phase} {log : List (Entry γ)} {m : Move Phase γ}

/-- When the last command is started, everything recorded so far lies behind. -/
theorem covered_stopPost (hne : u.stopPost ≠ u.startPre) (log : List (Entry γ)) (c : γ) :
    Phase.stopPost.Covered u (log ++ [.ends c, .starts u.stopPost]) := by
  simp [Phase.Covered, followed_append, Followed, Entry.command, hne]

theorem step_covered (hne : u.stopPost ≠ u.startPre) {e : JobEvent}
    (hphase : phase.Covered u log) (h : u.step phase e = some m) :
    m.next.Covered u (log ++ m.log) := by
  cases phase with
  | dead => cases e <;> cases h
  | startPre signalled =>
    cases e with
    | exec ok => cases h
    | signal => obtain rfl := Option.some.inj h; trivial
    | kill => obtain rfl := Option.some.inj h; trivial
    | ends status =>
      simp only [step] at h
      split_ifs at h with hexit
      · obtain rfl := Option.some.inj h
        exact covered_stopPost hne log u.startPre
      · obtain rfl := Option.some.inj h
        trivial
  | running =>
    cases e with
    | exec ok => cases h
    | signal => obtain rfl := Option.some.inj h; trivial
    | kill => obtain rfl := Option.some.inj h; trivial
    | ends status =>
      obtain rfl := Option.some.inj h
      exact covered_stopPost hne log u.start
  | stopPost =>
    cases e with
    | exec ok => cases h
    | signal => obtain rfl := Option.some.inj h; simpa using hphase
    | kill => obtain rfl := Option.some.inj h; simpa using hphase
    | ends status =>
      obtain rfl := Option.some.inj h
      simp only [Phase.Covered, followed_append, Followed, Entry.command, hne, false_imp_iff,
        and_true]
      exact .inr hphase

/-- The manager waits for every command. -/
theorem step_left {e : JobEvent} (h : u.step phase e = some m) : m.left = [] := by
  cases phase <;> cases e <;> simp only [step, reduceCtorEq] at h <;> (try split_ifs at h) <;>
    (obtain rfl := Option.some.inj h; rfl)

end Covered
end Supervised
end TransProxy.Library
