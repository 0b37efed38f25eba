import TransProxy.Library.Transition
import TransProxy.Service.Commands

/-!
# The firewall rules while the service is down

The service manager starts the unit or the wrapper, passes signals on and starts it again,
in any order and with any outcome of the commands. A restart is a stop and a start. What
is left of the firewall rules when the service is down is a matter of which commands were
started.
-/
namespace TransProxy.Service
open Library

inductive Manager where
  | systemd
  | launchd
deriving DecidableEq

/-- The installed service, with the arguments it was installed with. -/
inductive Job where
  | unit (phase : Supervised.Phase)
  | wrapper (p : Shell.Proc Command)

structure State where
  job : Job
  /-- The commands that go on without the shell that waited for them. -/
  left : List Command
  -- history
  log : List (Entry Command)

inductive Event where
  /-- By the user, at boot, or because the service is to be kept alive. -/
  | start
  | job (e : JobEvent)
  /-- A command that nothing waits for ends. -/
  | leftEnds (c : Command)

def Job.launch (args : List String) : Job → Option (Move Job Command)
  | .unit .dead => some ((systemdUnit args).launch.map .unit)
  | .wrapper .ended => some ((Shell.launch (wrapperScript args)).map .wrapper)
  | _ => none

def Job.step (args : List String) (e : JobEvent) : Job → Option (Move Job Command)
  | .unit phase => ((systemdUnit args).step phase e).map (·.map .unit)
  | .wrapper p => (Shell.step p e).map (·.map .wrapper)

def State.move (s : State) (m : Move Job Command) : State :=
  { job := m.next, left := m.left ++ s.left, log := s.log ++ m.log }

def step (args : List String) (s : State) : Event → Option State
  | .start => (s.job.launch args).map s.move
  | .job e => (s.job.step args e).map s.move
  | .leftEnds c =>
    if c ∈ s.left then some { s with left := s.left.erase c, log := s.log ++ [.ends c] } else none

def initial : Manager → State
  | .systemd => { job := .unit .dead, left := [], log := [] }
  | .launchd => { job := .wrapper .ended, left := [], log := [] }

def system (manager : Manager) (args : List String) : System State Event :=
  { init := initial manager, step := step args }

def Job.Down : Job → Prop
  | .unit .dead => True
  | .wrapper .ended => True
  | _ => False

def State.Idle (s : State) : Prop := s.job.Down ∧ s.left = []

def setupCommand : Manager → List String → Command
  | .systemd => unitSetup
  | .launchd => wrapperSetup

/-- Behind every start and every end of the setup, the teardown was started. -/
def Undone (setup : Command) (log : List (Entry Command)) : Prop :=
  Followed (·.command = setup) (.starts teardownCommand) log

def State.TornDown (s : State) (manager : Manager) (args : List String) : Prop :=
  Undone (setupCommand manager args) s.log

/-- The shell gives its trap away, or runs it while a setup goes on: the one that it waited
for, or one that another shell left. -/
def Escapes (args : List String) (s : State) : Event → Prop
  | .job e =>
    match s.job, e with
    | .wrapper (.execing _ _ _), .exec _ => True
    | .wrapper (.running _ _ _ _), .kill => True
    | .wrapper (.execing _ _ _), .kill => True
    | .wrapper (.running c _ _ _), .signal => c = wrapperSetup args ∨ wrapperSetup args ∈ s.left
    | .wrapper (.running _ _ _ _), .ends status => ¬ status.Success ∧ wrapperSetup args ∈ s.left
    | .wrapper (.execing _ _ _), .signal => wrapperSetup args ∈ s.left
    | _, _ => False
  | _ => False

section Commands
variable {args : List String}

theorem not_mem_filterFrom {flag : String} (h : flag ∈ skipFlags) (skip : Bool) :
    flag ∉ filterFrom skip args := by
  fun_induction filterFrom skip args with
  | case1 => exact List.not_mem_nil
  | case2 arg args ih => exact ih
  | case3 arg args hskip ih => exact ih
  | case4 arg args hskip skipNext hmatch ih => exact ih
  | case5 arg args hskip hmatch ih =>
    rw [List.mem_cons]
    rintro (rfl | hmem)
    · exact hskip h
    · exact ih hmem

/-- The proxy is not run with the teardown flag. -/
theorem proxyCommand_ne_teardown (args : List String) : proxyCommand args ≠ teardownCommand := by
  intro h
  have hargs : filterServiceArgs args = ["--teardown-firewall"] := congrArg Command.args h
  have hkept : "--teardown-firewall" ∈ filterServiceArgs args := by
    rw [hargs]
    exact List.mem_singleton_self _
  exact not_mem_filterFrom (by decide) false hkept

theorem teardown_ne_setup (manager : Manager) (args : List String) :
    teardownCommand ≠ setupCommand manager args := by
  intro h
  have hfirst : some "--teardown-firewall" = some "--setup-firewall" := by
    cases manager with
    | systemd => exact congrArg (fun c => c.args.head?) h
    | launchd => exact congrArg (fun c => c.args.head?) h
  exact absurd hfirst (by decide)

theorem wrapperSetup_ne_teardown (args : List String) : wrapperSetup args ≠ teardownCommand :=
  (teardown_ne_setup .launchd args).symm

end Commands

/-- Where the wrapper is, and whether its setup is still to be undone. -/
inductive Wrapped (args : List String) (log : List (Entry Command)) : Shell.Proc Command → Prop
  | setup (h : ¬ Undone (wrapperSetup args) log) : Wrapped args log
      (.running (wrapperSetup args) [.exec (proxyCommand args)] true [teardownCommand])
  | exec (h : ¬ Undone (wrapperSetup args) log) :
      Wrapped args log (.execing (proxyCommand args) true [teardownCommand])
  | trap : Wrapped args log (.trapping teardownCommand [] true)
  | proxy (h : ¬ Undone (wrapperSetup args) log) : Wrapped args log (.replaced (proxyCommand args))
  | ended : Wrapped args log .ended

def State.Coherent (manager : Manager) (args : List String) (s : State) : Prop :=
  match s.job with
  | .unit phase => manager = .systemd ∧ s.left = [] ∧ phase.Covered (systemdUnit args) s.log
  | .wrapper p => manager = .launchd ∧ Wrapped args s.log p

/-- The rules of a setup will stay behind when the wrapper comes to its end. -/
def State.Lost (args : List String) (s : State) : Prop :=
  match s.job with
  | .wrapper (.replaced _) => True
  | .wrapper (.trapping _ _ _) =>
    wrapperSetup args ∈ s.left ∨ ¬ Undone (wrapperSetup args) s.log
  | .wrapper .ended => wrapperSetup args ∈ s.left ∨ ¬ Undone (wrapperSetup args) s.log
  | _ => False

section Undone
variable {setup c : Command} {log : List (Entry Command)}

theorem not_undone_ends (log : List (Entry Command)) : ¬ Undone setup (log ++ [.ends setup]) := by
  simp [Undone, followed_append, Followed, Entry.command]

theorem not_undone_starts (log : List (Entry Command)) :
    ¬ Undone setup (log ++ [.starts setup]) := by
  simp [Undone, followed_append, Followed, Entry.command]

/-- Only the teardown undoes a setup. -/
theorem not_undone_append {more : List (Entry Command)} (hmore : .starts teardownCommand ∉ more)
    (h : ¬ Undone setup log) : ¬ Undone setup (log ++ more) := by
  rw [Undone, followed_append]
  exact fun hundone => h (hundone.1.resolve_left hmore)

theorem undone_ends_iff (hne : c ≠ setup) : Undone setup (log ++ [.ends c]) ↔ Undone setup log := by
  simp [Undone, followed_append, Followed, Entry.command, hne]

theorem undone_starts (hne : setup ≠ teardownCommand) (log : List (Entry Command)) :
    Undone setup (log ++ [.starts teardownCommand]) := by
  simp [Undone, followed_append, Followed, Entry.command, hne.symm]

end Undone

/-- The step keeps the wrapper's state coherent, and it loses the rules exactly when the
event escapes the trap. -/
structure Moves (args : List String) (left : List Command) (log : List (Entry Command))
    (p : Shell.Proc Command) (e : JobEvent) (m : Move (Shell.Proc Command) Command) : Prop where
  wrapped : Wrapped args (log ++ m.log) m.next
  lost_iff : State.Lost args ⟨.wrapper m.next, m.left ++ left, log ++ m.log⟩ ↔
    Escapes args ⟨.wrapper p, left, log⟩ (.job e) ∨ State.Lost args ⟨.wrapper p, left, log⟩

section Moves
variable {args : List String} {left : List Command} {log : List (Entry Command)} {e : JobEvent}
  {m : Move (Shell.Proc Command) Command}

theorem moves_setup (h : Shell.step (.running (wrapperSetup args) [.exec (proxyCommand args)] true
    [teardownCommand]) e = some m) : Moves args left log
      (.running (wrapperSetup args) [.exec (proxyCommand args)] true [teardownCommand]) e m := by
  cases e with
  | exec ok => cases h
  | kill =>
    obtain rfl := Option.some.inj h
    exact ⟨.ended, by simp [State.Lost, Escapes]⟩
  | signal =>
    obtain rfl := Option.some.inj h
    exact ⟨.trap, by simp [State.Lost, Escapes, Shell.exit]⟩
  | ends status =>
    simp only [Shell.step, true_and] at h
    split_ifs at h with hok
    · obtain rfl := Option.some.inj h
      refine ⟨.exec (not_undone_ends log), ?_⟩
      simp [State.Lost, Escapes, Shell.endOf, Shell.advance, hok]
    · obtain rfl := Option.some.inj h
      have hundone := undone_starts (wrapperSetup_ne_teardown args)
        (log ++ [.ends (wrapperSetup args)])
      rw [List.append_assoc] at hundone
      refine ⟨.trap, ?_⟩
      simpa [State.Lost, Escapes, Shell.endOf, Shell.exit, hok] using fun h => absurd hundone h

theorem moves_exec (hlog : ¬ Undone (wrapperSetup args) log)
    (h : Shell.step (.execing (proxyCommand args) true [teardownCommand]) e = some m) :
    Moves args left log (.execing (proxyCommand args) true [teardownCommand]) e m := by
  cases e with
  | ends status => cases h
  | kill =>
    obtain rfl := Option.some.inj h
    exact ⟨.ended, by simp [State.Lost, Escapes, hlog]⟩
  | signal =>
    obtain rfl := Option.some.inj h
    have hundone := undone_starts (wrapperSetup_ne_teardown args) log
    exact ⟨.trap, by simp [State.Lost, Escapes, Shell.exit, hundone]⟩
  | exec ok =>
    cases ok with
    | true =>
      obtain rfl := Option.some.inj h
      refine ⟨.proxy (not_undone_append ?_ hlog), by simp [State.Lost, Escapes]⟩
      simpa using (proxyCommand_ne_teardown args).symm
    | false =>
      obtain rfl := Option.some.inj h
      exact ⟨.ended, by simp [State.Lost, Escapes, hlog]⟩

theorem moves_trap (h : Shell.step (.trapping teardownCommand [] true) e = some m) :
    Moves args left log (.trapping teardownCommand [] true) e m := by
  have hne := wrapperSetup_ne_teardown args
  cases e with
  | exec ok => cases h
  | signal =>
    obtain rfl := Option.some.inj h
    exact ⟨.ended, by simp [State.Lost, Escapes, hne]⟩
  | kill =>
    obtain rfl := Option.some.inj h
    exact ⟨.ended, by simp [State.Lost, Escapes, hne]⟩
  | ends status =>
    simp only [Shell.step, Shell.exit, ite_self] at h
    obtain rfl := Option.some.inj h
    exact ⟨.ended, by simp [State.Lost, Escapes, Shell.endOf, undone_ends_iff hne.symm]⟩

theorem moves_proxy (hlog : ¬ Undone (wrapperSetup args) log)
    (h : Shell.step (.replaced (proxyCommand args)) e = some m) :
    Moves args left log (.replaced (proxyCommand args)) e m := by
  have hends : ¬ Undone (wrapperSetup args) (log ++ [.ends (proxyCommand args)]) :=
    not_undone_append (by simp) hlog
  cases e with
  | exec ok => cases h
  | signal =>
    obtain rfl := Option.some.inj h
    exact ⟨.proxy (by simpa using hlog), by simp [State.Lost]⟩
  | kill =>
    obtain rfl := Option.some.inj h
    exact ⟨.ended, by simp [State.Lost, Shell.endOf, hends]⟩
  | ends status =>
    obtain rfl := Option.some.inj h
    exact ⟨.ended, by simp [State.Lost, Shell.endOf, hends]⟩

theorem Wrapped.moves {p : Shell.Proc Command} (hp : Wrapped args log p)
    (h : Shell.step p e = some m) : Moves args left log p e m := by
  cases hp with
  | setup hlog => exact moves_setup h
  | exec hlog => exact moves_exec hlog h
  | trap => exact moves_trap h
  | proxy hlog => exact moves_proxy hlog h
  | ended => cases e <;> cases h

end Moves

section Runs
variable {manager : Manager} {args : List String} {events : List Event} {s t : State}

/-- A start comes behind the end of the shell before. -/
theorem coherent_start (hs : s.Coherent manager args) (h : step args s .start = some t) :
    t.Coherent manager args ∧ ¬ t.Lost args := by
  obtain ⟨job, left, log⟩ := s
  obtain ⟨m, hm, rfl⟩ := Option.map_eq_some_iff.mp h
  cases job with
  | unit phase =>
    cases phase <;> simp only [Job.launch, reduceCtorEq] at hm
    obtain rfl := Option.some.inj hm
    exact ⟨⟨hs.1, hs.2.1, trivial⟩, id⟩
  | wrapper p =>
    cases p <;> simp only [Job.launch, reduceCtorEq] at hm
    obtain rfl := Option.some.inj hm
    exact ⟨⟨hs.1, .setup (not_undone_starts log)⟩, id⟩

theorem coherent_job {e : JobEvent} (hs : s.Coherent manager args)
    (h : step args s (.job e) = some t) : t.Coherent manager args ∧
      (t.Lost args ↔ Escapes args s (.job e) ∨ s.Lost args) := by
  obtain ⟨job, left, log⟩ := s
  obtain ⟨m, hm, rfl⟩ := Option.map_eq_some_iff.mp h
  cases job with
  | unit phase =>
    obtain ⟨m, hstep, rfl⟩ := Option.map_eq_some_iff.mp hm
    refine ⟨⟨hs.1, ?_, ?_⟩, by simp [State.Lost, State.move, Move.map, Escapes]⟩
    · exact List.append_eq_nil_iff.mpr ⟨Supervised.step_left hstep, hs.2.1⟩
    · exact Supervised.step_covered (teardown_ne_setup .systemd args) hs.2.2 hstep
  | wrapper p =>
    obtain ⟨m, hstep, rfl⟩ := Option.map_eq_some_iff.mp hm
    have hmoves : Moves args left log p e m := Wrapped.moves hs.2 hstep
    exact ⟨⟨hs.1, hmoves.wrapped⟩, hmoves.lost_iff⟩

/-- A setup that ends is not undone any more. -/
theorem lost_leftEnds {left : List Command} {log : List (Entry Command)} {c : Command}
    (hmem : c ∈ left) :
    wrapperSetup args ∈ left.erase c ∨ ¬ Undone (wrapperSetup args) (log ++ [.ends c]) ↔
      wrapperSetup args ∈ left ∨ ¬ Undone (wrapperSetup args) log := by
  by_cases hc : c = wrapperSetup args
  · subst hc
    exact iff_of_true (.inr (not_undone_ends log)) (.inl hmem)
  · rw [List.mem_erase_of_ne (Ne.symm hc), undone_ends_iff hc]

theorem coherent_leftEnds {c : Command} (hs : s.Coherent manager args)
    (h : step args s (.leftEnds c) = some t) :
    t.Coherent manager args ∧ (t.Lost args ↔ s.Lost args) := by
  obtain ⟨job, left, log⟩ := s
  obtain ⟨hmem, heq⟩ := Option.ite_none_right_eq_some.mp h
  obtain rfl := Option.some.inj heq
  cases job with
  | unit phase =>
    obtain rfl : left = [] := hs.2.1
    cases hmem
  | wrapper p =>
    obtain ⟨rfl, hp⟩ := hs
    have hkeep := @not_undone_append (wrapperSetup args) log [.ends c] (by simp)
    cases hp with
    | setup hlog => exact ⟨⟨rfl, .setup (hkeep hlog)⟩, .rfl⟩
    | exec hlog => exact ⟨⟨rfl, .exec (hkeep hlog)⟩, .rfl⟩
    | trap => exact ⟨⟨rfl, .trap⟩, lost_leftEnds hmem⟩
    | proxy hlog => exact ⟨⟨rfl, .proxy (hkeep hlog)⟩, .rfl⟩
    | ended => exact ⟨⟨rfl, .ended⟩, lost_leftEnds hmem⟩

theorem coherent_step {e : Event} (hs : s.Coherent manager args) (h : step args s e = some t) :
    t.Coherent manager args := by
  cases e with
  | start => exact (coherent_start hs h).1
  | job e => exact (coherent_job hs h).1
  | leftEnds c => exact (coherent_leftEnds hs h).1

theorem lost_step {e : Event} (hs : s.Coherent manager args) (h : step args s e = some t) :
    t.Lost args ↔ Escapes args s e ∨ s.Lost args ∧ e ≠ .start := by
  cases e with
  | start => simpa [Escapes] using (coherent_start hs h).2
  | job e => simpa using (coherent_job hs h).2
  | leftEnds c => simpa [Escapes] using (coherent_leftEnds hs h).2

theorem coherent_of_reachable (hs : (system manager args).Reachable s) :
    s.Coherent manager args := by
  refine System.Reachable.invariant (S := system manager args) ?_ (fun _ _ _ => coherent_step) hs
  cases manager with
  | systemd => exact ⟨rfl, rfl, trivial⟩
  | launchd => exact ⟨rfl, .ended⟩

/-- The rules are lost by an event that escapes the trap, until the next start. -/
theorem lost_iff_since (hrun : (system manager args).run events = some s) :
    s.Lost args ↔ (system manager args).Since (Escapes args) (fun _ e => e = .start) events := by
  refine System.iff_since_of_run (S := system manager args) (P := (·.Lost args)) ?_ ?_ events s hrun
  · cases manager with
    | systemd => exact id
    | launchd => simp [system, initial, State.Lost, Undone, Followed]
  · exact fun s e t hs h => lost_step (coherent_of_reachable hs) h

/-- In every run, whenever the service is down: the teardown was run behind the last setup,
except when launchd ran the service and its last shell gave its trap away or ran it too early. -/
theorem torn_down_iff (hrun : (system manager args).run events = some s) (hidle : s.Idle) :
    s.TornDown manager args ↔ manager = .systemd ∨
      ¬ (system manager args).Since (Escapes args) (fun _ e => e = .start) events := by
  rw [← lost_iff_since hrun]
  have hs := coherent_of_reachable ⟨events, hrun⟩
  obtain ⟨job, left, log⟩ := s
  obtain ⟨hdown, rfl⟩ : job.Down ∧ left = [] := hidle
  cases job with
  | unit phase =>
    obtain ⟨rfl, _, hcovered⟩ := hs
    cases phase with
    | dead => exact iff_of_true hcovered (.inl rfl)
    | startPre signalled => exact hdown.elim
    | running => exact hdown.elim
    | stopPost => exact hdown.elim
  | wrapper p =>
    obtain ⟨rfl, hp⟩ := hs
    cases hp with
    | ended => simp [State.Lost, State.TornDown, setupCommand]
    | _ => exact hdown.elim

end Runs

def failedSetup : List Event := [.start, .job (.ends (.code 1)), .job (.ends (.code 0))]

theorem torn_down_iff_sample : ∃ s, (system .launchd ["--dns"]).run failedSetup = some s ∧
    s.Idle ∧ (s.TornDown .launchd ["--dns"] ↔ Manager.launchd = .systemd ∨
      ¬ (system .launchd ["--dns"]).Since (Escapes ["--dns"]) (fun _ e => e = .start)
        failedSetup) :=
  ⟨_, rfl, ⟨trivial, rfl⟩, @torn_down_iff .launchd ["--dns"] failedSetup _ rfl ⟨trivial, rfl⟩⟩

def exitedProxy : List Event :=
  [.start, .job (.ends (.code 0)), .job (.exec true), .job (.ends (.code 0))]

/-- The trap went with the shell, and the rules stay behind. -/
theorem not_torn_down_exited : ∃ s, (system .launchd ["--dns"]).run exitedProxy = some s ∧
    s.Idle ∧ ¬ s.TornDown .launchd ["--dns"] := by
  refine ⟨_, rfl, ⟨trivial, rfl⟩, ?_⟩
  intro hundone
  have hmem : Entry.starts teardownCommand ∈ [.ends (wrapperSetup ["--dns"]),
      .starts (proxyCommand ["--dns"]), .ends (proxyCommand ["--dns"])] := hundone.1 rfl
  simp [(proxyCommand_ne_teardown ["--dns"]).symm] at hmem

end TransProxy.Service
