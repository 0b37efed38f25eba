import TransProxy.Library.Fairness
import TransProxy.Daemon.Readiness

/-!
# The launcher does not wait forever

The end of the pipe is what wakes it when no report comes: whoever may still report holds the
write end, and gives it up by steps of its own.
-/
namespace TransProxy.Daemon
open Library

/-- A step of the startup that its process takes when its turn comes. -/
def Action.Own : Action → Prop
  | .kill _ | .read .interrupted | .runtime _ | .serverEnds _ | .removePid _ => False
  | _ => True

def Launcher.rank : Launcher → ℕ
  | .opening => 13
  | .forking => 12
  | .closingWrite => 3
  | .reading => 2
  | .waiting _ => 1
  | .ended _ | .killed => 0

def Child.rank : Child → ℕ
  | .closingRead => 8
  | .leaving => 7
  | .forking => 6
  | .signaling _ => 2
  | .closing _ | .detaching => 1
  | .absent | .ended _ | .killed => 0

def Grandchild.rank : Grandchild → ℕ
  | .writingPid _ => 4
  | .redirecting => 3
  | .signaling _ => 2
  | .closing _ => 1
  | _ => 0

def State.rank (s : State) : ℕ := s.launcher.rank + s.child.rank + s.daemon.rank

variable {path : String} {f : Option String} {s t : State} {a : Action}

theorem rank_step (h : step path s a = some t) : t.rank ≤ s.rank := by
  unfold State.rank
  revert h
  fun_cases step path s a <;> intro h
  all_goals try cases h
  all_goals simp_all [Launcher.rank, Child.rank, Grandchild.rank]
  all_goals omega

theorem rank_lt_of_own (ha : a.Own) (h : step path s a = some t) : t.rank < s.rank := by
  unfold State.rank
  revert h
  fun_cases step path s a <;> intro h
  all_goals try cases h
  all_goals simp_all [Launcher.rank, Child.rank, Grandchild.rank, Action.Own]
  all_goals omega

theorem daemon_enabled (path : String) (hd : 0 < s.daemon.rank) :
    ∃ a, Action.Own a ∧ (step path s a).isSome := by
  cases hdaemon : s.daemon with
  | writingPid pid => exact ⟨.writePid (.ok ()), trivial, by simp [step, hdaemon]⟩
  | redirecting => exact ⟨.redirect, trivial, by simp [step, hdaemon]⟩
  | signaling r => exact ⟨.daemonSignal false, trivial, by simp [step, hdaemon]⟩
  | closing r => exact ⟨.daemonClose, trivial, by cases r <;> simp [step, hdaemon]⟩
  | _ => simp [hdaemon, Grandchild.rank] at hd

theorem child_enabled (path : String) (hc : 0 < s.child.rank) :
    ∃ a, Action.Own a ∧ (step path s a).isSome := by
  cases hchild : s.child with
  | closingRead => exact ⟨.childCloseRead, trivial, by simp [step, hchild]⟩
  | leaving => exact ⟨.setsid (.ok ()), trivial, by simp [step, hchild]⟩
  | forking => exact ⟨.secondFork (.ok 0), trivial, by simp [step, hchild]⟩
  | signaling e => exact ⟨.childSignal false, trivial, by simp [step, hchild]⟩
  | closing e => exact ⟨.childClose, trivial, by simp [step, hchild]⟩
  | detaching => exact ⟨.detach, trivial, by simp [step, hchild]⟩
  | _ => simp [hchild, Child.rank] at hc

theorem holdsWrite_of_rank {c : Child} (h : c.rank = 0) : c.holdsWrite = false := by
  cases c <;> simp_all [Child.rank, Child.holdsWrite]

theorem daemon_holdsWrite_of_rank {d : Grandchild} (h : d.rank = 0) : d.holdsWrite = false := by
  cases d <;> simp_all [Grandchild.rank, Grandchild.holdsWrite]

/-- When the others are done, the pipe has a byte or an end. -/
theorem launcher_enabled (path : String) (hl : 0 < s.launcher.rank) (hc : s.child.rank = 0)
    (hd : s.daemon.rank = 0) : ∃ a, Action.Own a ∧ (step path s a).isSome := by
  cases hlauncher : s.launcher with
  | opening => exact ⟨.pipe (.ok ()), trivial, by simp [step, hlauncher]⟩
  | forking => exact ⟨.fork (.ok ()), trivial, by simp [step, hlauncher]⟩
  | closingWrite => exact ⟨.closeWrite, trivial, by simp [step, hlauncher]⟩
  | reading =>
    have hopen : s.writeEndOpen = false := by
      simp [State.writeEndOpen, hlauncher, Launcher.holdsWrite, holdsWrite_of_rank hc,
        daemon_holdsWrite_of_rank hd]
    refine ⟨.read .ready, trivial, ?_⟩
    cases hpipe : s.pipe <;> simp [step, hlauncher, hpipe, hopen]
  | waiting r =>
    refine ⟨.waitpid true, trivial, ?_⟩
    cases hchild : s.child <;> simp [step, hlauncher, hchild]
  | _ => simp [hlauncher, Launcher.rank] at hl

theorem enabled_of_rank (path : String) (h : 0 < s.rank) :
    ∃ a, Action.Own a ∧ (step path s a).isSome := by
  rcases Nat.eq_zero_or_pos s.daemon.rank with hd | hd
  · rcases Nat.eq_zero_or_pos s.child.rank with hc | hc
    · have hl : 0 < s.launcher.rank := by
        simp only [State.rank, hc, hd] at h
        exact h
      exact launcher_enabled path hl hc hd
    · exact child_enabled path hc
  · exact daemon_enabled path hd

theorem ended_of_rank (h : s.rank = 0) : s.launcher = .killed ∨ ∃ r, s.launcher = .ended r := by
  cases hl : s.launcher <;> simp_all [State.rank, Launcher.rank]

/-- Whatever fails and whoever is killed, the launcher comes to its end. When its report got
through, its status tells for good whether there is a daemon. -/
theorem startup_settles (e : (system path f).Execution) (hfair : e.WeaklyFair {a | a.Own}) :
    ∃ n, ∀ m, n ≤ m →
      ((e.state m).launcher = .killed ∨ ∃ r, (e.state m).launcher = .ended r) ∧
      ((∀ k a, e.action k = some a → a.Sound) → ∃ r, (e.state m).launcher = .ended r ∧
        (r = .ok () ↔ (e.state m).daemon.Reported (.ok ()))) := by
  obtain ⟨n, _, hzero⟩ := e.eventually_rank_zero (P := fun _ => True) State.rank
    (fun _ => {a | a.Own}) (fun _ => hfair) (fun _ _ _ _ _ h => ⟨trivial, rank_step h⟩)
    (fun _ _ _ hpos => enabled_of_rank path hpos)
    (fun _ _ _ _ _ _ ha h => rank_lt_of_own ha h) (n := 0) trivial
  refine ⟨n, fun m hm => ?_⟩
  have hrank : (e.state m).rank = 0 := by
    apply e.mono (P := fun s => s.rank = 0) _ hm hzero
    intro s a t _ hs h
    exact Nat.le_zero.mp (hs ▸ rank_step h)
  refine ⟨ended_of_rank hrank, fun hsound => ?_⟩
  have hactions : ∀ a ∈ e.actions m, a.Sound := by
    intro a ha
    obtain ⟨k, _, hk⟩ := List.mem_filterMap.mp ha
    exact hsound k a hk
  have halive := (told_of_run hactions (e.run_actions m)).alive.1
  rcases ended_of_rank hrank with hl | ⟨r, hl⟩
  · exact absurd hl halive
  · exact ⟨r, hl, (exit_of_sound_run hactions (e.run_actions m) hl).1⟩

theorem startup_settles_sample : ∃ e : (system "/run/trans_proxy.pid" none).Execution,
    e.state sampleStartup.length = sampleStarted ∧ ∃ n, ∀ m, n ≤ m →
      ((e.state m).launcher = .killed ∨ ∃ r, (e.state m).launcher = .ended r) ∧
      ((∀ k a, e.action k = some a → a.Sound) → ∃ r, (e.state m).launcher = .ended r ∧
        (r = .ok () ↔ (e.state m).daemon.Reported (.ok ()))) := by
  have hrun : (system "/run/trans_proxy.pid" none).run sampleStartup = some sampleStarted := rfl
  refine ⟨.ofRun hrun, System.Execution.state_ofRun hrun (by rwa [List.take_length]), ?_⟩
  apply startup_settles
  apply System.Execution.weaklyFair_ofRun hrun
  rintro ⟨a, ha, henabled⟩
  obtain ⟨t, h⟩ := Option.isSome_iff_exists.mp henabled
  have h : step "/run/trans_proxy.pid" sampleStarted a = some t := h
  exact absurd (rank_lt_of_own ha h) (Nat.not_lt_zero _)

end TransProxy.Daemon
