import TransProxy.Daemon.Startup

/-!
# What the exit status of the launcher says

At most one status byte ever goes into the pipe. It comes from the child while there is no
daemon, or from the daemon after its PID file.
-/
namespace TransProxy.Daemon
open Library

/-! ## Where the processes are -/

def Launcher.hasForked : Launcher → Bool
  | .opening | .forking => false
  | _ => true

/-- The byte is not taken from the pipe yet. -/
def Launcher.before : Launcher → Bool
  | .opening | .forking | .closingWrite | .reading => true
  | _ => false

def Launcher.heard : Launcher → Option (Except String Unit)
  | .waiting r | .ended r => some r
  | _ => none

theorem Launcher.hasForked_of_heard {l : Launcher} {r : Except String Unit}
    (h : l.heard = some r) : l.hasForked = true := by
  cases l with
  | opening | forking => cases h
  | _ => rfl

def Child.hasForked : Child → Bool
  | .detaching | .ended (.ok ()) | .killed => true
  | _ => false

def Child.mayHaveFailed : Child → Bool
  | .closing _ | .ended (.error _) | .killed => true
  | _ => false

/-- The daemon has come to this result and had its turn to report it. -/
def Grandchild.Reported : Grandchild → Except String Unit → Prop
  | .closing r, r' => r = r'
  | .ended (.startup e), r => r = .error e
  | .running, r | .serving, r | .cleaning _, r | .ended _, r => r = .ok ()
  | .killed, _ => True
  | _, _ => False

@[simp] theorem State.write_launcher (s : State) (ok : Bool) (b : UInt8) :
    (s.write ok b).launcher = s.launcher := by
  cases ok <;> rfl

@[simp] theorem State.write_child (s : State) (ok : Bool) (b : UInt8) :
    (s.write ok b).child = s.child := by
  cases ok <;> rfl

@[simp] theorem State.write_daemon (s : State) (ok : Bool) (b : UInt8) :
    (s.write ok b).daemon = s.daemon := by
  cases ok <;> rfl

@[simp] theorem State.write_pidFile (s : State) (ok : Bool) (b : UInt8) :
    (s.write ok b).pidFile = s.pidFile := by
  cases ok <;> rfl

@[simp] theorem State.write_recorded (s : State) (ok : Bool) (b : UInt8) :
    (s.write ok b).recorded = s.recorded := by
  cases ok <;> rfl

@[simp] theorem State.write_sent (s : State) (ok : Bool) (b : UInt8) :
    (s.write ok b).sent = s.sent ++ if ok then [b] else [] := by
  cases ok <;> simp [State.write]

@[simp] theorem State.write_pipe (s : State) (ok : Bool) (b : UInt8) :
    (s.write ok b).pipe = s.pipe ++ if ok then [b] else [] := by
  cases ok <;> simp [State.write]

@[simp] theorem statusResult_eq_ok {b : UInt8} : statusResult b = .ok () ↔ b = daemonReady := by
  unfold statusResult
  split_ifs <;> simp_all

@[simp] theorem statusOf_eq_ready {r : Except String Unit} :
    statusOf r = daemonReady ↔ r = .ok () := by
  cases r <;> simp [statusOf, daemonReady, daemonFailed]

variable {path : String} {f : Option String} {s t : State} {a : Action}

/-! ## The report -/

/-- The byte that was sent, if any, is from the child or from the daemon. -/
def State.SentBy (s : State) : Prop :=
  s.sent = [] ∨ s.child.mayHaveFailed ∧ s.daemon = .absent ∧ s.sent = [daemonFailed] ∨
    ∃ r, s.daemon.Reported r ∧ s.sent = [statusOf r]

/-- A byte goes into the pipe when the child or the daemon signals, and not otherwise. -/
theorem sent_step (h : step path s a = some t) : t.sent = s.sent ∨
    (∃ e, s.child = .signaling e ∧ t.child = .closing e ∧ t.daemon = s.daemon ∧
      t.sent = s.sent ++ [daemonFailed]) ∨
    ∃ r, a = .daemonSignal true ∧ s.daemon = .signaling r ∧ t.daemon = .closing r ∧
      t.sent = s.sent ++ [statusOf r] := by
  revert h
  fun_cases step path s a <;> intro h
  all_goals try cases h
  all_goals simp_all

structure Inv (s : State) : Prop where
  first : s.launcher.hasForked = false → s.child = .absent
  second : s.child.hasForked ∨ s.daemon = .absent
  sentBy : s.SentBy
  unread : s.launcher.before → s.pipe = s.sent
  heard : s.launcher.heard = some (.ok ()) → s.sent = [daemonReady]

theorem Inv.initial (f : Option String) : Inv (initial f) where
  first _ := rfl
  second := .inr rfl
  sentBy := .inl rfl
  unread _ := rfl
  heard h := by cases h

theorem first_step (h : step path s a = some t) (hs : Inv s)
    (ht : t.launcher.hasForked = false) : t.child = .absent := by
  have hfirst := hs.first
  revert h
  fun_cases step path s a <;> intro h
  all_goals try cases h
  all_goals simp_all [Launcher.hasForked]

theorem second_step (h : step path s a = some t) (hs : Inv s) :
    t.child.hasForked ∨ t.daemon = .absent := by
  have hfirst := hs.first
  have hsecond := hs.second
  revert h
  fun_cases step path s a <;> intro h
  all_goals try cases h
  all_goals simp_all [Launcher.hasForked, Child.hasForked]

theorem reported_step {r : Except String Unit} (h : step path s a = some t) (hs : Inv s)
    (hr : s.daemon.Reported r) : t.daemon.Reported r := by
  have hsecond := hs.second
  revert h
  fun_cases step path s a <;> intro h
  all_goals try cases h
  all_goals simp_all [Grandchild.Reported, Child.hasForked]

theorem failed_step (h : step path s a = some t) (hc : s.child.mayHaveFailed)
    (hd : s.daemon = .absent) (hfirst : s.launcher.hasForked = false → s.child = .absent) :
    t.child.mayHaveFailed ∧ t.daemon = .absent := by
  revert h
  fun_cases step path s a <;> intro h
  all_goals try cases h
  all_goals simp_all [Launcher.hasForked, Child.mayHaveFailed]

theorem Inv.sent_of_child_signaling {e : String} (hs : Inv s) (hc : s.child = .signaling e) :
    s.sent = [] := by
  have hsent := hs.sentBy
  have hsecond := hs.second
  simp_all [State.SentBy, Child.mayHaveFailed, Child.hasForked, Grandchild.Reported]

theorem Inv.sent_of_signaling {r : Except String Unit} (hs : Inv s) (hd : s.daemon = .signaling r) :
    s.sent = [] := by
  have hsent := hs.sentBy
  simp_all [State.SentBy, Grandchild.Reported]

theorem sentBy_step (h : step path s a = some t) (hs : Inv s) : t.SentBy := by
  rcases sent_step h with hsent | ⟨e, hc, hc', hd, hsent⟩ | ⟨r, _, hd, hd', hsent⟩
  · rcases hs.sentBy with h0 | ⟨hc, hd, h1⟩ | ⟨r, hr, h1⟩
    · exact .inl (hsent.trans h0)
    · obtain ⟨hc', hd'⟩ := failed_step h hc hd hs.first
      exact .inr (.inl ⟨hc', hd', hsent.trans h1⟩)
    · exact .inr (.inr ⟨r, reported_step h hs hr, hsent.trans h1⟩)
  · have habsent : s.daemon = .absent := by
      have hsecond := hs.second
      simpa [hc, Child.hasForked] using hsecond
    rw [hs.sent_of_child_signaling hc] at hsent
    exact .inr (.inl ⟨by rw [hc']; rfl, by rw [hd, habsent], hsent⟩)
  · rw [hs.sent_of_signaling hd] at hsent
    exact .inr (.inr ⟨r, by rw [hd']; rfl, hsent⟩)

theorem unread_step (h : step path s a = some t) (hs : Inv s) (ht : t.launcher.before) :
    t.pipe = t.sent := by
  have hunread := hs.unread
  revert h
  fun_cases step path s a <;> intro h
  all_goals try cases h
  all_goals simp_all [Launcher.before]

theorem Inv.sent_length (hs : Inv s) : s.sent.length ≤ 1 := by
  rcases hs.sentBy with h | ⟨_, _, h⟩ | ⟨r, _, h⟩ <;> simp [h]

theorem absent_step (h : step path s a = some t) (hs : s.launcher.hasForked = true)
    (hc : s.child = .absent) : t.child = .absent := by
  revert h
  fun_cases step path s a <;> intro h
  all_goals try cases h
  all_goals simp_all [Launcher.hasForked]

theorem heard_step (h : step path s a = some t) (hs : Inv s)
    (ht : t.launcher.heard = some (.ok ())) : t.sent = [daemonReady] := by
  have hunread := hs.unread
  have hheard := hs.heard
  have hchild := fun e => hs.sent_of_child_signaling (e := e)
  have hdaemon := fun r => hs.sent_of_signaling (r := r)
  have hlength := hs.sent_length
  revert h
  fun_cases step path s a <;> intro h
  all_goals try cases h
  all_goals simp_all [Launcher.before, Launcher.heard]
  -- the byte that was read is all there was to read
  rw [← hunread] at hlength ⊢
  simpa using hlength

theorem inv_step (hs : Inv s) (h : step path s a = some t) : Inv t where
  first := first_step h hs
  second := second_step h hs
  sentBy := sentBy_step h hs
  unread := unread_step h hs
  heard := heard_step h hs

theorem inv_of_run {acts : List Action} (hrun : (system path f).run acts = some s) : Inv s :=
  System.Reachable.invariant (S := system path f) (Inv.initial f) (fun _ _ _ hs h => inv_step hs h)
    ⟨acts, hrun⟩

/-! ## The PID file -/

/-- The file is written, and `daemonize` goes on to return. -/
def Grandchild.afterPid : Grandchild → Bool
  | .signaling r | .closing r => r.isOk
  | .redirecting | .running | .serving | .cleaning _ => true
  | .ended (.runtime _) | .ended (.server _ _) => true
  | _ => false

def Grandchild.removed : Grandchild → Bool
  | .ended (.server _ removed) => removed
  | _ => false

structure Named (acts : List Action) (s : State) : Prop where
  forked : ∀ pid, s.daemon = .writingPid pid → .secondFork (.ok pid) ∈ acts
  recorded : ∀ pid, s.recorded = some pid → .secondFork (.ok pid) ∈ acts
  written : s.daemon.afterPid → ∃ pid, s.recorded = some pid ∧
    s.pidFile = if s.daemon.removed then none else some (pidText pid)

theorem Named.initial (f : Option String) : Named [] (initial f) where
  forked _ h := by cases h
  recorded _ h := by cases h
  written h := by cases h

theorem named_step {acts : List Action} (hs : Named acts s) (h : step path s a = some t) :
    Named (acts ++ [a]) t := by
  obtain ⟨hforked, hrecorded, hwritten⟩ := hs
  refine ⟨?_, ?_, ?_⟩
  · revert h
    fun_cases step path s a <;> intro h
    all_goals try cases h
    all_goals simp_all
  · revert h
    fun_cases step path s a <;> intro h
    all_goals try cases h
    all_goals simp_all
  · revert h
    fun_cases step path s a <;> intro h
    all_goals try cases h
    all_goals simp_all [Grandchild.afterPid, Grandchild.removed, Except.isOk, Except.toBool]
    · exact hwritten
    · obtain ⟨pid, hrecorded, hfile⟩ := hwritten
      exact ⟨pid, hrecorded, by rw [hfile]; rfl⟩

theorem named_of_run {acts : List Action} (hrun : (system path f).run acts = some s) :
    Named acts s :=
  System.run_induction (S := system path f) (Named.initial f)
    (fun _ _ _ _ _ hs h => named_step hs h) acts s hrun

/-- The ready byte was sent by a daemon whose PID file stood. -/
theorem exists_signal_of_sent {acts : List Action} (hrun : (system path f).run acts = some s)
    (hsent : s.sent = [daemonReady]) : ∃ before after u pid,
      acts = before ++ .daemonSignal true :: after ∧ (system path f).run before = some u ∧
        u.daemon = .signaling (.ok ()) ∧ u.pidFile = some (pidText pid) ∧
          .secondFork (.ok pid) ∈ before := by
  revert hsent
  refine System.run_induction (S := system path f)
    (P := fun acts s => s.sent = [daemonReady] → ∃ before after u pid,
      acts = before ++ .daemonSignal true :: after ∧ (system path f).run before = some u ∧
        u.daemon = .signaling (.ok ()) ∧ u.pidFile = some (pidText pid) ∧
          .secondFork (.ok pid) ∈ before) ?_ ?_ acts s hrun
  · intro h
    cases h
  · intro acts s a t hs ih h hsent
    have hinv := inv_of_run hs
    rcases sent_step h with hsame | ⟨e, hc, _, _, hchild⟩ | ⟨r, rfl, hd, _, hdaemon⟩
    · obtain ⟨before, after, u, pid, rfl, hu⟩ := ih (hsame.symm.trans hsent)
      exact ⟨before, after ++ [a], u, pid, by simp, hu⟩
    · rw [hinv.sent_of_child_signaling hc, hsent] at hchild
      cases hchild
    · rw [hinv.sent_of_signaling hd, hsent] at hdaemon
      obtain rfl := statusOf_eq_ready.mp (List.cons.inj hdaemon).1.symm
      have hnamed := named_of_run hs
      obtain ⟨pid, hrecorded, hfile⟩ := hnamed.written (by rw [hd]; rfl)
      refine ⟨acts, [], s, pid, rfl, hs, hd, ?_, hnamed.recorded pid hrecorded⟩
      simpa [hd, Grandchild.removed] using hfile

/-- A launcher that exits with status 0 leaves a daemon that had got ready, and whose PID file
named the process that the second fork made. -/
theorem ready_of_exit {acts : List Action} (hrun : (system path f).run acts = some s)
    (hexit : s.launcher = .ended (.ok ())) : ∃ before after u pid,
      acts = before ++ .daemonSignal true :: after ∧ (system path f).run before = some u ∧
        u.daemon = .signaling (.ok ()) ∧ u.pidFile = some (pidText pid) ∧
          .secondFork (.ok pid) ∈ before :=
  exists_signal_of_sent hrun ((inv_of_run hrun).heard (by rw [hexit]; rfl))

/-- A start in which nothing fails; the daemon reports before the child is gone. -/
def sampleStartup : List Action :=
  [.pipe (.ok ()), .fork (.ok ()), .childCloseRead, .setsid (.ok ()), .secondFork (.ok 412),
    .closeWrite, .writePid (.ok ()), .redirect, .daemonSignal true, .read .ready, .detach,
    .waitpid false, .daemonClose, .runtime (.ok ())]

def sampleStarted : State :=
  { launcher := .ended (.ok ()), child := .ended (.ok ()), daemon := .serving, pipe := []
    pidFile := some (pidText 412), sent := [daemonReady], recorded := some 412 }

theorem ready_of_exit_sample : ∃ before after u pid,
    sampleStartup = before ++ .daemonSignal true :: after ∧
      (system "/run/trans_proxy.pid" none).run before = some u ∧
        u.daemon = .signaling (.ok ()) ∧ u.pidFile = some (pidText pid) ∧
          .secondFork (.ok pid) ∈ before :=
  ready_of_exit (s := sampleStarted) rfl rfl

/-- `daemonize` has returned in the daemon, and the file is not to be removed yet. -/
def Grandchild.up : Grandchild → Bool
  | .closing r => r.isOk
  | .running | .serving | .cleaning _ => true
  | _ => false

/-- While the daemon is up, its PID file names it. Behind a daemon that has ended after its
start, the file is gone exactly when the runtime was there and the removal succeeded. -/
theorem pidFile_of_run {acts : List Action} (hrun : (system path f).run acts = some s) :
    (s.daemon.up → ∃ pid, .secondFork (.ok pid) ∈ acts ∧ s.pidFile = some (pidText pid)) ∧
    ∀ ending, s.daemon = .ended ending → (∀ e, ending ≠ .startup e) →
      (s.pidFile = none ↔ ∃ r, ending = .server r true) ∧
      (s.pidFile ≠ none → ∃ pid, .secondFork (.ok pid) ∈ acts ∧
        s.pidFile = some (pidText pid)) := by
  have hnamed := named_of_run hrun
  constructor
  · intro hup
    have hafter : s.daemon.afterPid ∧ s.daemon.removed = false := by
      cases hd : s.daemon <;> simp_all [Grandchild.up, Grandchild.afterPid, Grandchild.removed]
    obtain ⟨pid, hrecorded, hfile⟩ := hnamed.written hafter.1
    exact ⟨pid, hnamed.recorded pid hrecorded, by simpa [hafter.2] using hfile⟩
  · intro ending hd hending
    have hafter : s.daemon.afterPid := by
      cases ending <;> simp_all [Grandchild.afterPid]
    obtain ⟨pid, hrecorded, hfile⟩ := hnamed.written hafter
    have hremoved : s.daemon.removed ↔ ∃ r, ending = .server r true := by
      cases ending <;> simp_all [Grandchild.removed]
    rw [← hremoved, hfile]
    refine ⟨by simp, fun hne => ⟨pid, hnamed.recorded pid hrecorded, ?_⟩⟩
    simpa using hne

theorem pidFile_of_run_sample : sampleStarted.daemon.up ∧
    ∃ pid, .secondFork (.ok pid) ∈ sampleStartup ∧ sampleStarted.pidFile = some (pidText pid) :=
  ⟨rfl, (@pidFile_of_run "/run/trans_proxy.pid" none sampleStarted sampleStartup rfl).1 rfl⟩

/-! ## Runs in which the report gets through -/

/-- No process is killed, and neither the report nor the reading of it fails. -/
def Action.Sound : Action → Prop
  | .kill _ | .read (.failed _) => False
  | .childSignal ok | .daemonSignal ok => ok = true
  | _ => True

def Child.failed : Child → Bool
  | .closing _ | .ended (.error _) => true
  | _ => false

structure Told (s : State) : Prop where
  alive : s.launcher ≠ .killed ∧ s.child ≠ .killed ∧ s.daemon ≠ .killed
  failed : s.child.failed → s.sent = [daemonFailed]
  reported : ∀ r, s.daemon.Reported r → s.sent = [statusOf r]
  present : s.child.hasForked → s.daemon ≠ .absent
  forked : s.launcher.before = true → s.launcher.hasForked = true → s.child ≠ .absent
  heard : ∀ r, s.launcher.heard = some r → s.child = .absent ∧ r ≠ .ok () ∨
    ∃ r', s.sent = [statusOf r'] ∧ (r = .ok () ↔ r' = .ok ())

theorem alive_step (ha : a.Sound) (h : step path s a = some t)
    (hs : s.launcher ≠ .killed ∧ s.child ≠ .killed ∧ s.daemon ≠ .killed) :
    t.launcher ≠ .killed ∧ t.child ≠ .killed ∧ t.daemon ≠ .killed := by
  revert h
  fun_cases step path s a <;> intro h
  all_goals try cases h
  all_goals simp_all [Action.Sound]

theorem reported_of_step {r : Except String Unit} (ha : a.Sound) (h : step path s a = some t)
    (ht : t.daemon.Reported r) : s.daemon.Reported r ∨
      s.daemon = .signaling r ∧ t.sent = s.sent ++ [statusOf r] := by
  revert h
  fun_cases step path s a <;> intro h
  all_goals try cases h
  all_goals simp_all [Action.Sound, Grandchild.Reported]

theorem failed_of_step (ha : a.Sound) (h : step path s a = some t) (ht : t.child.failed) :
    s.child.failed ∨ (∃ e, s.child = .signaling e) ∧ t.sent = s.sent ++ [daemonFailed] := by
  revert h
  fun_cases step path s a <;> intro h
  all_goals try cases h
  all_goals simp_all [Action.Sound, Child.failed]

theorem present_step (ha : a.Sound) (h : step path s a = some t)
    (hs : s.child.hasForked → s.daemon ≠ .absent) (ht : t.child.hasForked) :
    t.daemon ≠ .absent := by
  revert h
  fun_cases step path s a <;> intro h
  all_goals try cases h
  all_goals simp_all [Action.Sound, Child.hasForked]

theorem forked_step (h : step path s a = some t)
    (hs : s.launcher.before = true → s.launcher.hasForked = true → s.child ≠ .absent)
    (hb : t.launcher.before = true) (hf : t.launcher.hasForked = true) : t.child ≠ .absent := by
  revert h
  fun_cases step path s a <;> intro h
  all_goals try cases h
  all_goals simp_all [Launcher.before, Launcher.hasForked]

/-- A status that was sent is the last. -/
theorem sent_step_of_sent (h : step path s a = some t) (hs : Inv s) (hsent : s.sent ≠ []) :
    t.sent = s.sent := by
  rcases sent_step h with hsame | ⟨e, hc, _⟩ | ⟨r, _, hd, _⟩
  · exact hsame
  · exact absurd (hs.sent_of_child_signaling hc) hsent
  · exact absurd (hs.sent_of_signaling hd) hsent

theorem Inv.exists_statusOf {b : UInt8} (hs : Inv s) (hb : s.sent = [b]) :
    ∃ r, b = statusOf r := by
  rcases hs.sentBy with hsent | ⟨_, _, hsent⟩ | ⟨r, _, hsent⟩
  · rw [hb] at hsent
    cases hsent
  · rw [hb] at hsent
    exact ⟨.error "", (List.cons.inj hsent).1⟩
  · rw [hb] at hsent
    exact ⟨r, (List.cons.inj hsent).1⟩

/-- The pipe does not end before something was written to it. -/
theorem Told.sent_ne_nil (hs : Told s) (hl : s.launcher = .reading)
    (hend : s.writeEndOpen = false) : s.sent ≠ [] := by
  intro hsent
  obtain ⟨halive, hfailed, hreported, hpresent, hforked, _⟩ := hs
  have hc : s.child = .ended (.ok ()) := by
    have hchild : s.child ≠ .absent := hforked (by rw [hl]; rfl) (by rw [hl]; rfl)
    cases hc : s.child with
    | ended r => cases r <;> simp_all [Child.failed]
    | _ => simp_all [State.writeEndOpen, Child.holdsWrite]
  have hd : s.daemon.holdsWrite = false := by
    simp only [State.writeEndOpen, Bool.or_eq_false_iff] at hend
    exact hend.2
  have hpresent' : s.daemon ≠ .absent := hpresent (by rw [hc]; rfl)
  cases hdaemon : s.daemon with
  | ended ending => cases ending <;> simp_all [Grandchild.Reported]
  | _ => simp_all [Grandchild.holdsWrite, Grandchild.Reported]

theorem heard_of_step {r : Except String Unit} (ha : a.Sound) (h : step path s a = some t)
    (hinv : Inv s) (hs : Told s) (ht : t.launcher.heard = some r) :
    s.launcher.heard = some r ∨ s.launcher.hasForked = false ∧ t.child = .absent ∧ r ≠ .ok () ∨
      ∃ b, s.sent = [b] ∧ t.sent = [b] ∧ r = statusResult b := by
  have hunread := hinv.unread
  have hfirst := hinv.first
  have hlength := hinv.sent_length
  have hend := hs.sent_ne_nil
  revert h
  fun_cases step path s a <;> intro h
  all_goals try cases h
  all_goals simp_all [Launcher.before, Launcher.hasForked, Launcher.heard, Action.Sound]
  all_goals try simp [← ht]
  -- the byte that was read is all there was to read
  rw [← hunread] at hlength ⊢
  simpa using hlength

theorem told_step (ha : a.Sound) (h : step path s a = some t) (hinv : Inv s) (hs : Told s) :
    Told t where
  alive := alive_step ha h hs.alive
  failed ht := by
    rcases failed_of_step ha h ht with hc | ⟨⟨e, hc⟩, hsent⟩
    · have hsent := hs.failed hc
      rw [sent_step_of_sent h hinv (by simp [hsent]), hsent]
    · rw [hsent, hinv.sent_of_child_signaling hc, List.nil_append]
  reported r ht := by
    rcases reported_of_step ha h ht with hd | ⟨hd, hsent⟩
    · have hsent := hs.reported r hd
      rw [sent_step_of_sent h hinv (by simp [hsent]), hsent]
    · rw [hsent, hinv.sent_of_signaling hd, List.nil_append]
  present := present_step ha h hs.present
  forked := forked_step h hs.forked
  heard r ht := by
    rcases heard_of_step ha h hinv hs ht with hl | ⟨_, hc, hr⟩ | ⟨b, hb, hsent, rfl⟩
    · rcases hs.heard r hl with ⟨hc, hr⟩ | ⟨r', hsent, hr⟩
      · exact .inl ⟨absent_step h (Launcher.hasForked_of_heard hl) hc, hr⟩
      · refine .inr ⟨r', ?_, hr⟩
        rw [sent_step_of_sent h hinv (by simp [hsent]), hsent]
    · exact .inl ⟨hc, hr⟩
    · obtain ⟨r', rfl⟩ := hinv.exists_statusOf hb
      exact .inr ⟨r', hsent, by rw [statusResult_eq_ok, statusOf_eq_ready]⟩

theorem Told.initial (f : Option String) : Told (initial f) where
  alive := by simp [Daemon.initial]
  failed h := by cases h
  reported _ h := by cases h
  present h := by cases h
  forked _ h := by cases h
  heard _ h := by cases h

theorem told_of_run {acts : List Action} (hsound : ∀ a ∈ acts, a.Sound)
    (hrun : (system path f).run acts = some s) : Told s := by
  have hboth : Inv s ∧ Told s :=
    System.runFrom_invariant (S := system path f) (I := fun s => Inv s ∧ Told s)
      (fun a ha s t hs h => ⟨inv_step hs.1 h, told_step (hsound a ha) h hs.1 hs.2⟩) hrun
      ⟨Inv.initial f, Told.initial f⟩
  exact hboth.2

/-- No daemon is going to come up. -/
def State.Barred (s : State) : Prop :=
  s.launcher.hasForked = true ∧ (s.child = .absent ∨ s.child.mayHaveFailed) ∧
      s.daemon = .absent ∨ ∃ e, s.daemon.Reported (.error e)

theorem barred_step (h : step path s a = some t) (hinv : Inv s) (hs : s.Barred) : t.Barred := by
  have hlater : s.launcher.hasForked = true → t.launcher.hasForked = true := by
    revert h
    fun_cases step path s a <;> intro h
    all_goals try cases h
    all_goals simp_all [Launcher.hasForked]
  rcases hs with ⟨hl, hc | hc, hd⟩ | ⟨e, hd⟩
  · have hc' := absent_step h hl hc
    have hsecond := (inv_step hinv h).second
    rw [hc'] at hsecond
    exact .inl ⟨hlater hl, .inl hc', by simpa [Child.hasForked] using hsecond⟩
  · obtain ⟨hc', hd'⟩ := failed_step h hc hd hinv.first
    exact .inl ⟨hlater hl, .inr hc', hd'⟩
  · exact .inr ⟨e, reported_step h hinv hd⟩

theorem State.Barred.not_up (hs : s.Barred) : s.daemon.up = false := by
  rcases hs with ⟨_, _, hd⟩ | ⟨e, hd⟩
  · rw [hd]
    rfl
  · cases hdaemon : s.daemon <;>
      simp_all [Grandchild.Reported, Grandchild.up, Except.isOk, Except.toBool]

theorem Told.barred (hs : Told s) (hinv : Inv s) {r : Except String Unit}
    (hl : s.launcher.heard = some r) (hr : r ≠ .ok ()) : s.Barred := by
  have hforked := Launcher.hasForked_of_heard hl
  rcases hs.heard r hl with ⟨hc, _⟩ | ⟨r', hsent, hr'⟩
  · have hsecond := hinv.second
    rw [hc] at hsecond
    exact .inl ⟨hforked, .inl hc, by simpa [Child.hasForked] using hsecond⟩
  · rcases hinv.sentBy with h0 | ⟨hc, hd, _⟩ | ⟨r'', hd, h1⟩
    · rw [h0] at hsent
      cases hsent
    · exact .inl ⟨hforked, .inr hc, hd⟩
    · cases r'' with
      | error e => exact .inr ⟨e, hd⟩
      | ok u =>
        -- the ready byte is not made out to be an error
        rw [h1] at hsent
        have hbyte : statusOf r' = daemonReady := (List.cons.inj hsent).1.symm
        exact absurd (hr'.mpr (statusOf_eq_ready.mp hbyte)) hr

/-- In a run without kills or failures of the pipe, the exit status of the launcher tells whether
the daemon has come up, and after a failure none ever comes up. -/
theorem exit_of_sound_run {acts : List Action} (hsound : ∀ a ∈ acts, a.Sound)
    (hrun : (system path f).run acts = some s) {r : Except String Unit}
    (hexit : s.launcher = .ended r) :
    (r = .ok () ↔ s.daemon.Reported (.ok ())) ∧
    (r ≠ .ok () → ∀ more t, (system path f).runFrom s more = some t → t.daemon.up = false) := by
  have hinv := inv_of_run hrun
  have htold := told_of_run hsound hrun
  have hheard : s.launcher.heard = some r := by rw [hexit]; rfl
  constructor
  · constructor
    · rintro rfl
      have hsent := hinv.heard hheard
      rcases hinv.sentBy with h0 | ⟨_, _, h1⟩ | ⟨r', hd, h1⟩
      · rw [h0] at hsent
        cases hsent
      · rw [h1] at hsent
        cases hsent
      · rw [h1] at hsent
        obtain rfl := statusOf_eq_ready.mp (List.cons.inj hsent).1
        exact hd
    · intro hd
      by_contra hr
      rcases htold.barred hinv hheard hr with ⟨_, _, habsent⟩ | ⟨e, herror⟩
      · rw [habsent] at hd
        exact hd
      · have hbyte := htold.reported _ herror
        rw [htold.reported _ hd] at hbyte
        cases hbyte
  · intro hr more t hmore
    have hboth : Inv t ∧ t.Barred :=
      System.runFrom_invariant (S := system path f) (I := fun s => Inv s ∧ s.Barred)
        (fun _ _ _ _ hs h => ⟨inv_step hs.1 h, barred_step h hs.1 hs.2⟩) hmore
        ⟨hinv, htold.barred hinv hheard hr⟩
    exact hboth.2.not_up

theorem exit_of_sound_run_sample :
    (Except.ok () : Except String Unit) = .ok () ↔ sampleStarted.daemon.Reported (.ok ()) :=
  (@exit_of_sound_run "/run/trans_proxy.pid" none sampleStarted sampleStartup
    (by simp [sampleStartup, Action.Sound]) rfl (.ok ()) rfl).1

end TransProxy.Daemon
