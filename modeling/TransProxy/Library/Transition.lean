import Mathlib.Data.List.Induction

/-!
# Partial deterministic transition systems and their runs

An action carries every choice its environment makes (which task moves, what
the network delivers, what the clock reads), so a run is determined by its list
of actions and "for every interleaving" is a quantifier over action lists. An
action that is not enabled has no successor.
-/
namespace TransProxy.Library

/-- A start state and a partial step for each action. -/
structure System (σ α : Type*) where
  init : σ
  step : σ → α → Option σ

namespace System
variable {σ α : Type*} (S : System σ α)

def runFrom (s : σ) : List α → Option σ
  | [] => some s
  | a :: acts => (S.step s a).bind (fun t => runFrom t acts)

def run (acts : List α) : Option σ := S.runFrom S.init acts

def Reachable (s : σ) : Prop := ∃ acts, S.run acts = some s

@[simp] theorem runFrom_nil (s : σ) : S.runFrom s [] = some s := rfl

@[simp] theorem run_nil : S.run [] = some S.init := rfl

theorem runFrom_cons (s : σ) (a : α) (acts : List α) :
    S.runFrom s (a :: acts) = (S.step s a).bind (fun t => S.runFrom t acts) := rfl

theorem runFrom_cons_of_step {s t : σ} {a : α} (h : S.step s a = some t) (acts : List α) :
    S.runFrom s (a :: acts) = S.runFrom t acts := by
  rw [runFrom_cons, h]
  rfl

@[simp] theorem runFrom_singleton (s : σ) (a : α) : S.runFrom s [a] = S.step s a := by
  cases h : S.step s a <;> simp [runFrom_cons, h]

theorem runFrom_append (s : σ) (acts more : List α) :
    S.runFrom s (acts ++ more) = (S.runFrom s acts).bind (fun t => S.runFrom t more) := by
  induction acts generalizing s with
  | nil => simp
  | cons a acts ih =>
    simp only [List.cons_append, runFrom_cons, Option.bind_assoc]
    cases S.step s a with
    | none => rfl
    | some t => exact ih t

theorem run_append (acts more : List α) :
    S.run (acts ++ more) = (S.run acts).bind (fun t => S.runFrom t more) :=
  S.runFrom_append S.init acts more

theorem run_snoc (acts : List α) (a : α) :
    S.run (acts ++ [a]) = (S.run acts).bind (fun t => S.step t a) := by
  simp only [run_append, runFrom_singleton]

variable {S}

/-- Every prefix of a run is a run. -/
theorem exists_prefix_of_run {acts more : List α} {t : σ} (hrun : S.run (acts ++ more) = some t) :
    ∃ s, S.run acts = some s ∧ S.runFrom s more = some t := by
  rw [run_append] at hrun
  exact Option.bind_eq_some_iff.mp hrun

theorem exists_step_of_run_snoc {acts : List α} {a : α} {t : σ}
    (hrun : S.run (acts ++ [a]) = some t) : ∃ s, S.run acts = some s ∧ S.step s a = some t := by
  rw [run_snoc] at hrun
  exact Option.bind_eq_some_iff.mp hrun

/-- Induction along a run, with the actions taken so far in view: a property that
holds of the empty run and is kept by every enabled action holds of every run. -/
theorem run_induction {P : List α → σ → Prop} (h0 : P [] S.init)
    (hstep : ∀ acts s a t, S.run acts = some s → P acts s → S.step s a = some t →
      P (acts ++ [a]) t) :
    ∀ acts s, S.run acts = some s → P acts s := by
  intro acts
  induction acts using List.reverseRecOn with
  | nil =>
    intro s hs
    obtain rfl : S.init = s := by simpa using hs
    exact h0
  | append_singleton acts a ih =>
    intro t ht
    obtain ⟨s, hs, hst⟩ := exists_step_of_run_snoc ht
    exact hstep acts s a t hs (ih s hs) hst

/-- An inductive invariant holds in every reachable state. -/
theorem Reachable.invariant {I : σ → Prop} (h0 : I S.init)
    (hstep : ∀ s a t, I s → S.step s a = some t → I t) {s : σ} (hs : S.Reachable s) : I s := by
  obtain ⟨acts, hacts⟩ := hs
  exact run_induction (P := fun _ s => I s) h0 (fun _ s a t _ hI h => hstep s a t hI h) acts s hacts

/-- A property kept by each of the actions holds at the end when it holds at the start. -/
theorem runFrom_invariant {I : σ → Prop} {acts : List α} {s t : σ}
    (hstep : ∀ a ∈ acts, ∀ s t, I s → S.step s a = some t → I t)
    (hrun : S.runFrom s acts = some t) (hs : I s) : I t := by
  induction acts generalizing s with
  | nil =>
    obtain rfl := Option.some.inj hrun
    exact hs
  | cons a acts ih =>
    obtain ⟨u, hu, hrest⟩ := Option.bind_eq_some_iff.mp hrun
    exact ih (fun b hb => hstep b (List.mem_cons_of_mem a hb)) hrest
      (hstep a List.mem_cons_self s u hs hu)

variable (S) in
def Visits (acts : List α) (s : σ) : Prop := ∃ before after, acts = before ++ after ∧
  S.run before = some s

variable (S) in
def Takes (acts : List α) (s : σ) (a : α) (t : σ) : Prop := ∃ before after,
  acts = before ++ a :: after ∧ S.run before = some s ∧ S.step s a = some t

/-- A property of the start that is kept by the steps which the run takes holds
wherever the run comes through. -/
theorem Visits.invariant {I : σ → Prop} {acts : List α} (h0 : I S.init)
    (hstep : ∀ s a t, S.Takes acts s a t → I s → I t) {s : σ} (hs : S.Visits acts s) : I s := by
  obtain ⟨before, after, hacts, hrun⟩ := hs
  induction before using List.reverseRecOn generalizing after s with
  | nil =>
    obtain rfl := Option.some.inj hrun
    exact h0
  | append_singleton before a ih =>
    obtain ⟨u, hu, hus⟩ := exists_step_of_run_snoc hrun
    have hsplit : acts = before ++ a :: after := by simp [hacts]
    exact hstep u a s ⟨before, after, hsplit, hu, hus⟩ (ih (a :: after) hsplit hu)

theorem Takes.visits {acts : List α} {s t : σ} {a : α} (h : S.Takes acts s a t) :
    S.Visits acts s := by
  obtain ⟨before, after, hacts, hrun, _⟩ := h
  exact ⟨before, a :: after, hacts, hrun⟩

theorem Takes.visits_next {acts : List α} {s t : σ} {a : α} (h : S.Takes acts s a t) :
    S.Visits acts t := by
  obtain ⟨before, after, rfl, hrun, hstep⟩ := h
  refine ⟨before ++ [a], after, by simp, ?_⟩
  rw [run_snoc, hrun]
  exact hstep

theorem Takes.step_eq {acts : List α} {s t : σ} {a : α} (h : S.Takes acts s a t) :
    S.step s a = some t := by
  obtain ⟨_, _, _, _, hstep⟩ := h
  exact hstep

section Log
variable {β : Type*} (observe : σ → α → Option β)

variable (S) in
/-- What is observed of the actions, each in the state that it is taken in. -/
def logFrom (s : σ) : List α → List β
  | [] => []
  | a :: acts =>
    match S.step s a with
    | none => []
    | some t => (observe s a).toList ++ logFrom t acts

variable (S) in
def log (acts : List α) : List β := S.logFrom observe S.init acts

theorem logFrom_append {s t : σ} {acts : List α} (h : S.runFrom s acts = some t) (more : List α) :
    S.logFrom observe s (acts ++ more) = S.logFrom observe s acts ++ S.logFrom observe t more := by
  induction acts generalizing s with
  | nil =>
    obtain rfl := Option.some.inj h
    rfl
  | cons a acts ih =>
    obtain ⟨u, hu, hrest⟩ := Option.bind_eq_some_iff.mp h
    simp only [List.cons_append, logFrom, hu, ih hrest, List.append_assoc]

theorem log_snoc {s t : σ} {acts : List α} {a : α} (h : S.run acts = some s)
    (hstep : S.step s a = some t) :
    S.log observe (acts ++ [a]) = S.log observe acts ++ (observe s a).toList := by
  rw [log, logFrom_append observe h, log]
  simp only [logFrom, hstep, List.append_nil]

end Log

variable (S) in
/-- Some action of the run enters, and no action after it leaves. -/
def Since (enters leaves : σ → α → Prop) (acts : List α) : Prop := ∃ before a later s,
  acts = before ++ a :: later ∧ S.run before = some s ∧ enters s a ∧
    ∀ mid b rest t, later = mid ++ b :: rest → S.run (before ++ a :: mid) = some t → ¬ leaves t b

section Since
variable {enters leaves : σ → α → Prop}

theorem not_since_nil : ¬ S.Since enters leaves [] := by
  rintro ⟨before, a, later, _, hacts, _⟩
  simp at hacts

theorem Since.of_snoc {acts : List α} {a : α} (h : S.Since enters leaves (acts ++ [a])) {s : σ}
    (hs : S.run acts = some s) : enters s a ∨ S.Since enters leaves acts ∧ ¬ leaves s a := by
  obtain ⟨before, b, later, u, hacts, hu, henters, hstays⟩ := h
  induction later using List.reverseRecOn with
  | nil =>
    obtain ⟨rfl, hab⟩ := List.append_inj' hacts rfl
    obtain rfl := (List.cons.inj hab).1
    obtain rfl := Option.some.inj (hs.symm.trans hu)
    exact .inl henters
  | append_singleton later c =>
    have hsplit : acts ++ [a] = (before ++ b :: later) ++ [c] := by simp [hacts]
    obtain ⟨rfl, hac⟩ := List.append_inj' hsplit rfl
    obtain rfl := (List.cons.inj hac).1
    refine .inr ⟨⟨before, b, later, u, rfl, hu, henters, ?_⟩, hstays later a [] s rfl hs⟩
    intro mid d rest t hlater
    exact hstays mid d (rest ++ [a]) t (by simp [hlater])

theorem Since.snoc {acts : List α} (h : S.Since enters leaves acts) {s : σ} {a : α}
    (hs : S.run acts = some s) (hstays : ¬ leaves s a) : S.Since enters leaves (acts ++ [a]) := by
  obtain ⟨before, b, later, u, rfl, hu, henters, hlater⟩ := h
  refine ⟨before, b, later ++ [a], u, by simp, hu, henters, ?_⟩
  intro mid c rest t hsplit hmid
  induction rest using List.reverseRecOn with
  | nil =>
    obtain ⟨rfl, hac⟩ := List.append_inj' hsplit rfl
    obtain rfl := (List.cons.inj hac).1
    obtain rfl := Option.some.inj (hs.symm.trans hmid)
    exact hstays
  | append_singleton rest d =>
    have hsnoc : later ++ [a] = (mid ++ c :: rest) ++ [d] := by simp [hsplit]
    exact hlater mid c rest t (List.append_inj' hsnoc rfl).1 hmid

theorem since_snoc_of_enters {acts : List α} {s : σ} {a : α} (hs : S.run acts = some s)
    (henters : enters s a) : S.Since enters leaves (acts ++ [a]) :=
  ⟨acts, a, [], s, rfl, hs, henters, by simp⟩

/-- What each step begins, ends or keeps holds after a run exactly when it was begun and
has not been ended since. -/
theorem iff_since_of_run {P : σ → Prop} (h0 : ¬ P S.init)
    (hstep : ∀ s a t, S.Reachable s → S.step s a = some t →
      (P t ↔ enters s a ∨ P s ∧ ¬ leaves s a)) :
    ∀ acts s, S.run acts = some s → (P s ↔ S.Since enters leaves acts) := by
  refine run_induction (iff_of_false h0 not_since_nil) ?_
  intro acts s a t hs ih hst
  rw [hstep s a t ⟨acts, hs⟩ hst, ih]
  constructor
  · rintro (henters | ⟨hsince, hstays⟩)
    · exact since_snoc_of_enters hs henters
    · exact hsince.snoc hs hstays
  · exact fun h => h.of_snoc hs

end Since

end System

section CanReach
variable {σ α : Type*}

/-- Allowed actions, one after the other, can lead from the state to the goal. -/
inductive CanReach (step : σ → α → Option σ) (allowed : α → Prop) (goal : σ → Prop) : σ → Prop
  | here {s : σ} (h : goal s) : CanReach step allowed goal s
  | next {s t : σ} (a : α) (ha : allowed a) (hstep : step s a = some t)
      (h : CanReach step allowed goal t) : CanReach step allowed goal s

variable {step : σ → α → Option σ} {allowed : α → Prop} {goal : σ → Prop}

/-- A goal that is easier to meet is easier to reach. -/
theorem CanReach.mono {goal' : σ → Prop} {s : σ} (hgoal : ∀ t, goal t → goal' t)
    (h : CanReach step allowed goal s) : CanReach step allowed goal' s := by
  induction h with
  | here h => exact .here (hgoal _ h)
  | next a ha hstep _ ih => exact .next a ha hstep ih

/-- A way to states from which there is a way. -/
theorem CanReach.trans {s : σ} (h : CanReach step allowed (CanReach step allowed goal) s) :
    CanReach step allowed goal s := by
  induction h with
  | here h => exact h
  | next a ha hstep _ ih => exact .next a ha hstep ih

/-- A way in a part of a system is one in the whole. -/
theorem CanReach.map {σ' α' : Type*} {step' : σ' → α' → Option σ'} {allowed' : α' → Prop}
    {goal' : σ' → Prop} {f : σ → σ'} {g : α → α'} (hallowed : ∀ a, allowed a → allowed' (g a))
    (hgoal : ∀ s, goal s → goal' (f s))
    (hstep : ∀ s a t, step s a = some t → step' (f s) (g a) = some (f t)) {s : σ}
    (h : CanReach step allowed goal s) : CanReach step' allowed' goal' (f s) := by
  induction h with
  | here h => exact .here (hgoal _ h)
  | next a ha hst _ ih => exact .next (g a) (hallowed a ha) (hstep _ a _ hst) ih

/-- What the allowed actions keep and the goal excludes bars the way to the goal. -/
theorem not_canReach_of_invariant {I : σ → Prop}
    (hstep : ∀ s a t, I s → allowed a → step s a = some t → I t) (hgoal : ∀ s, I s → ¬ goal s)
    {s : σ} (hs : I s) : ¬ CanReach step allowed goal s := by
  intro h
  induction h with
  | here h => exact hgoal _ hs h
  | next a ha hst _ ih => exact ih (hstep _ a _ hs ha hst)

end CanReach
end TransProxy.Library
