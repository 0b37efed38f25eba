import TransProxy.Library.Transition

/-!
# Infinite executions and weak fairness

An execution may stutter forever, so that nothing ever has to happen. What does happen
is due to fairness: a group of actions of which one stays enabled gets its turn.
-/
namespace TransProxy.Library.System
variable {σ α : Type*} (S : System σ α)

structure Execution where
  state : ℕ → σ
  action : ℕ → Option α
  start : state 0 = S.init
  next : ∀ n, match action n with
    | none => state (n + 1) = state n
    | some a => S.step (state n) a = some (state (n + 1))

def Enabled (group : Set α) (s : σ) : Prop := ∃ a ∈ group, (S.step s a).isSome

namespace Execution
variable {S} (e : S.Execution)

def actions (n : ℕ) : List α := (List.range n).filterMap e.action

theorem run_actions (n : ℕ) : S.run (e.actions n) = some (e.state n) := by
  induction n with
  | zero => rw [e.start]; rfl
  | succ n ih =>
    have hnext := e.next n
    rw [actions, List.range_succ, List.filterMap_append]
    cases haction : e.action n with
    | none =>
      simp only [haction] at hnext
      simp only [List.filterMap_cons_none haction, List.filterMap_nil, List.append_nil]
      rw [hnext]
      exact ih
    | some a =>
      simp only [haction] at hnext
      rw [List.filterMap_cons_some haction, List.filterMap_nil, run_snoc]
      rw [actions] at ih
      rw [ih]
      exact hnext

theorem reachable (n : ℕ) : S.Reachable (e.state n) := ⟨e.actions n, e.run_actions n⟩

/-- What the steps from reachable states keep is kept by the execution. -/
theorem mono {P : σ → Prop} (hstep : ∀ s a t, S.Reachable s → P s → S.step s a = some t → P t)
    {n m : ℕ} (hnm : n ≤ m) (hn : P (e.state n)) : P (e.state m) := by
  induction hnm with
  | refl => exact hn
  | @step m _ ih =>
    have hnext := e.next m
    cases haction : e.action m with
    | none =>
      simp only [haction] at hnext
      rw [hnext]
      exact ih
    | some a =>
      simp only [haction] at hnext
      exact hstep _ a _ (e.reachable m) ih hnext

/-- What holds now and not later is given up by some step in between. -/
theorem exists_step_of_not {P : σ → Prop} {n m : ℕ} (hnm : n ≤ m) (hn : P (e.state n))
    (hm : ¬ P (e.state m)) : ∃ k a, n ≤ k ∧ P (e.state k) ∧ e.action k = some a ∧
      S.step (e.state k) a = some (e.state (k + 1)) ∧ ¬ P (e.state (k + 1)) := by
  induction hnm with
  | refl => exact absurd hn hm
  | @step m hle ih =>
    by_cases hold : P (e.state m)
    · have hnext := e.next m
      cases haction : e.action m with
      | none =>
        simp only [haction] at hnext
        rw [hnext] at hm
        exact absurd hold hm
      | some a =>
        simp only [haction] at hnext
        exact ⟨m, a, hle, hold, haction, hnext, hm⟩
    · exact ih hold

/-- A group of which some action stays enabled is taken. -/
def WeaklyFair (group : Set α) : Prop :=
  ∀ n, (∀ m, n ≤ m → S.Enabled group (e.state m)) →
    ∃ m, n ≤ m ∧ ∃ a ∈ group, e.action m = some a

/-- A rank that no step raises, and that is lowered by the fair group of its value, which
is enabled as long as the rank is positive, comes down to zero. -/
theorem eventually_rank_zero {P : σ → Prop} (rank : σ → ℕ) (group : ℕ → Set α)
    (hfair : ∀ k, e.WeaklyFair (group k))
    (hkeep : ∀ s a t, S.Reachable s → P s → S.step s a = some t → P t ∧ rank t ≤ rank s)
    (henabled : ∀ s, S.Reachable s → P s → 0 < rank s → S.Enabled (group (rank s)) s)
    (hlower : ∀ s a t, S.Reachable s → P s → 0 < rank s → a ∈ group (rank s) →
      S.step s a = some t → rank t < rank s)
    {n : ℕ} (hn : P (e.state n)) : ∃ m, n ≤ m ∧ rank (e.state m) = 0 := by
  have hP : ∀ m, n ≤ m → P (e.state m) := fun m hm =>
    e.mono (fun s a t hs hps h => (hkeep s a t hs hps h).1) hm hn
  generalize hk : rank (e.state n) = k
  induction k using Nat.strongRecOn generalizing n with
  | ind k ih =>
    rcases Nat.eq_zero_or_pos k with rfl | hpos
    · exact ⟨n, Nat.le_refl n, hk⟩
    -- from here on the rank is at most `k`; it cannot stay there
    have hle : ∀ m, n ≤ m → rank (e.state m) ≤ k := by
      intro m hm
      have hboth : P (e.state m) ∧ rank (e.state m) ≤ k := by
        apply e.mono (P := fun s => P s ∧ rank s ≤ k) _ hm ⟨hn, Nat.le_of_eq hk⟩
        intro s a t hs hps h
        obtain ⟨ht, hrank⟩ := hkeep s a t hs hps.1 h
        exact ⟨ht, Nat.le_trans hrank hps.2⟩
      exact hboth.2
    have hless : ∃ m, n ≤ m ∧ rank (e.state m) < k := by
      by_contra hnone
      have heq : ∀ m, n ≤ m → rank (e.state m) = k := by
        intro m hm
        have hlow := hle m hm
        have hhigh : ¬ rank (e.state m) < k := fun h => hnone ⟨m, hm, h⟩
        omega
      obtain ⟨m, hm, a, ha, haction⟩ := hfair k n (by
        intro m hm
        have henabled' := henabled _ (e.reachable m) (hP m hm) (by rw [heq m hm]; exact hpos)
        rw [heq m hm] at henabled'
        exact henabled')
      have hnext := e.next m
      simp only [haction] at hnext
      have hlower' := hlower _ a _ (e.reachable m) (hP m hm) (by rw [heq m hm]; exact hpos)
        (by rw [heq m hm]; exact ha) hnext
      rw [heq m hm, heq (m + 1) (by omega)] at hlower'
      exact absurd hlower' (Nat.lt_irrefl k)
    obtain ⟨m, hm, hrank⟩ := hless
    obtain ⟨m', hm', hzero⟩ := ih _ hrank (hP m hm) (fun i hi => hP i (Nat.le_trans hm hi)) rfl
    exact ⟨m', Nat.le_trans hm hm', hzero⟩

def ofRun {acts : List α} {s : σ} (hrun : S.run acts = some s) : S.Execution where
  state n := (S.run (acts.take n)).getD s
  action n := acts[n]?
  start := by simp
  next n := by
    have hsome : ∀ k, ∃ t, S.run (acts.take k) = some t := by
      intro k
      rw [← List.take_append_drop k acts] at hrun
      obtain ⟨t, ht, _⟩ := exists_prefix_of_run hrun
      exact ⟨t, ht⟩
    obtain ⟨t, ht⟩ := hsome n
    cases hn : acts[n]? with
    | none =>
      have hle : acts.length ≤ n := List.getElem?_eq_none_iff.mp hn
      simp only
      rw [List.take_of_length_le hle, List.take_of_length_le (by omega)]
    | some a =>
      obtain ⟨u, hu⟩ := hsome (n + 1)
      have hsnoc : acts.take (n + 1) = acts.take n ++ [a] := by
        rw [List.take_add_one, hn]
        rfl
      simp only
      rw [ht, hu, Option.getD_some, Option.getD_some]
      rw [hsnoc, run_snoc, ht] at hu
      exact hu

theorem state_ofRun {acts : List α} {s t : σ} (hrun : S.run acts = some s) {n : ℕ}
    (ht : S.run (acts.take n) = some t) : (ofRun hrun).state n = t := by
  simp [ofRun, ht]

/-- At the end there is nothing left that is due. -/
theorem weaklyFair_ofRun {acts : List α} {s : σ} (hrun : S.run acts = some s) {group : Set α}
    (hidle : ¬ S.Enabled group s) : (ofRun hrun).WeaklyFair group := by
  intro n hn
  have hlast := hn (max n acts.length) (Nat.le_max_left _ _)
  have hall : acts.take (max n acts.length) = acts :=
    List.take_of_length_le (Nat.le_max_right _ _)
  rw [state_ofRun hrun (hall ▸ hrun)] at hlast
  exact absurd hlast hidle

end Execution
end TransProxy.Library.System
