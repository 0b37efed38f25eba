import Mathlib.Data.List.Basic
import Mathlib.Data.List.Infix

/-!
# Scripts of commands that may fail

A script gives commands one after the other and goes on by how each of them ended. What
can be observed of it is the list of its commands with their outcomes, whichever these
are; what it leaves is the state that the commands make of the one before.
-/
namespace TransProxy.Library

/-- Commands from `κ` end with outcomes from `ο`; errors are in `ε`. -/
inductive Script (κ ο ε α : Type) where
  | done (a : α)
  | fail (e : ε)
  | command (cmd : κ) (next : ο → Script κ ο ε α)

namespace Script
variable {κ ο ε α β : Type}

def bind : Script κ ο ε α → (α → Script κ ο ε β) → Script κ ο ε β
  | done a, f => f a
  | fail e, _ => fail e
  | command cmd next, f => command cmd (fun o => (next o).bind f)

instance : Monad (Script κ ο ε) where
  pure := done
  bind := bind

@[simp] theorem pure_eq (a : α) : (pure a : Script κ ο ε α) = done a := rfl

@[simp] theorem bind_eq (s : Script κ ο ε α) (f : α → Script κ ο ε β) : s >>= f = s.bind f := rfl

/-- An error becomes a result. -/
def attempt : Script κ ο ε α → Script κ ο ε (Except ε α)
  | done a => done (.ok a)
  | fail e => done (.error e)
  | command cmd next => command cmd (fun o => (next o).attempt)

/-- A command whose outcome does not matter. -/
def ignore (cmd : κ) : Script κ ο ε Unit := command cmd (fun _ => done ())

/-- A command that has to succeed; `error` is what its outcome is reported as if it did not. -/
def check (error : κ → ο → Option ε) (cmd : κ) : Script κ ο ε Unit :=
  command cmd fun o =>
    match error cmd o with
    | none => done ()
    | some e => fail e

def checkAll (error : κ → ο → Option ε) : List κ → Script κ ο ε Unit
  | [] => done ()
  | cmd :: cmds => (check error cmd).bind fun _ => checkAll error cmds

theorem bind_assoc {γ : Type} (s : Script κ ο ε α) (f : α → Script κ ο ε β)
    (g : β → Script κ ο ε γ) : (s.bind f).bind g = s.bind fun a => (f a).bind g := by
  induction s with
  | done a => rfl
  | fail e => rfl
  | command cmd next ih => simp only [bind, ih]

theorem checkAll_append (error : κ → ο → Option ε) (cmds more : List κ) :
    checkAll error (cmds ++ more) = (checkAll error cmds).bind fun _ => checkAll error more := by
  induction cmds with
  | nil => rfl
  | cons cmd cmds ih => rw [List.cons_append, checkAll, ih, checkAll, bind_assoc]

/-- The commands with their outcomes, and the result, for outcomes that go by the command. -/
def run (outcome : κ → ο) : Script κ ο ε α → List (κ × ο) × Except ε α
  | done a => ([], .ok a)
  | fail e => ([], .error e)
  | command cmd next =>
    let (trace, result) := run outcome (next (outcome cmd))
    ((cmd, outcome cmd) :: trace, result)

/-- The traces and results of a script, however its commands end. -/
inductive Runs : Script κ ο ε α → List (κ × ο) → Except ε α → Prop
  | done (a : α) : Runs (done a) [] (.ok a)
  | fail (e : ε) : Runs (fail e) [] (.error e)
  | command {cmd : κ} {next : ο → Script κ ο ε α} {o : ο} {trace : List (κ × ο)}
      {result : Except ε α} (h : Runs (next o) trace result) :
      Runs (command cmd next) ((cmd, o) :: trace) result

theorem runs_run (outcome : κ → ο) (s : Script κ ο ε α) :
    Runs s (s.run outcome).1 (s.run outcome).2 := by
  induction s with
  | done a => exact .done a
  | fail e => exact .fail e
  | command cmd next ih => exact .command (ih _)

theorem mem_run {outcome : κ → ο} {s : Script κ ο ε α} {e : κ × ο} (h : e ∈ (s.run outcome).1) :
    e.2 = outcome e.1 := by
  induction s with
  | done a => cases h
  | fail e => cases h
  | command cmd next ih =>
    rcases List.mem_cons.mp h with rfl | h
    · rfl
    · exact ih _ h

theorem run_bind_ok {outcome : κ → ο} {s : Script κ ο ε α} {f : α → Script κ ο ε β} {a : α}
    (h : (s.run outcome).2 = .ok a) : (s.bind f).run outcome =
      ((s.run outcome).1 ++ ((f a).run outcome).1, ((f a).run outcome).2) := by
  induction s with
  | done b =>
    cases h
    rfl
  | fail e => cases h
  | command cmd next ih =>
    have hnext := ih (outcome cmd) h
    simp only [bind, run, hnext, List.cons_append]

theorem run_attempt (outcome : κ → ο) (s : Script κ ο ε α) :
    s.attempt.run outcome = ((s.run outcome).1, .ok (s.run outcome).2) := by
  induction s with
  | done a => rfl
  | fail e => rfl
  | command cmd next ih => simp only [attempt, run, ih]

/-- With these outcomes the script has a result. -/
def Succeeds (outcome : κ → ο) (s : Script κ ο ε α) : Prop := ∃ a, (s.run outcome).2 = .ok a

theorem succeeds_done (outcome : κ → ο) (a : α) : (done a : Script κ ο ε α).Succeeds outcome :=
  ⟨a, rfl⟩

theorem succeeds_bind {outcome : κ → ο} {s : Script κ ο ε α} {f : α → Script κ ο ε β}
    (hs : s.Succeeds outcome) (hf : ∀ a, (f a).Succeeds outcome) :
    (s.bind f).Succeeds outcome := by
  obtain ⟨a, ha⟩ := hs
  obtain ⟨b, hb⟩ := hf a
  exact ⟨b, by rw [run_bind_ok ha, hb]⟩

theorem succeeds_attempt (outcome : κ → ο) (s : Script κ ο ε α) : s.attempt.Succeeds outcome :=
  ⟨(s.run outcome).2, by rw [run_attempt]⟩

theorem succeeds_checkAll {outcome : κ → ο} {error : κ → ο → Option ε} {cmds : List κ}
    (h : ∀ cmd ∈ cmds, error cmd (outcome cmd) = none) :
    (checkAll error cmds).Succeeds outcome := by
  induction cmds with
  | nil => exact succeeds_done outcome ()
  | cons cmd cmds ih =>
    obtain ⟨hcmd, hrest⟩ := List.forall_mem_cons.mp h
    refine succeeds_bind ⟨(), ?_⟩ fun _ => ih hrest
    simp [check, run, hcmd]

variable {s : Script κ ο ε α} {f : α → Script κ ο ε β} {trace : List (κ × ο)}
  {error : κ → ο → Option ε} {cmd : κ} {cmds : List κ}

@[simp] theorem runs_done {a : α} {result : Except ε α} :
    Runs (done a) trace result ↔ trace = [] ∧ result = .ok a := by
  constructor
  · intro h
    cases h
    exact ⟨rfl, rfl⟩
  · rintro ⟨rfl, rfl⟩
    exact .done a

@[simp] theorem runs_fail {e : ε} {result : Except ε α} :
    Runs (fail e) trace result ↔ trace = [] ∧ result = .error e := by
  constructor
  · intro h
    cases h
    exact ⟨rfl, rfl⟩
  · rintro ⟨rfl, rfl⟩
    exact .fail e

theorem runs_command {next : ο → Script κ ο ε α} {result : Except ε α} :
    Runs (command cmd next) trace result ↔
      ∃ o rest, Runs (next o) rest result ∧ trace = (cmd, o) :: rest := by
  constructor
  · intro h
    cases h with
    | command h => exact ⟨_, _, h, rfl⟩
  · rintro ⟨o, rest, h, rfl⟩
    exact .command h

/-- The second part runs only when the first one has a result. -/
theorem runs_bind {result : Except ε β} : Runs (s.bind f) trace result ↔
    (∃ first a second, Runs s first (.ok a) ∧ Runs (f a) second result ∧
      trace = first ++ second) ∨ ∃ e, Runs s trace (.error e) ∧ result = .error e := by
  induction s generalizing trace with
  | done a => simp [bind]
  | fail e => simp [bind]
  | command cmd next ih =>
    simp only [bind, runs_command, ih]
    constructor
    · rintro ⟨o, rest, ⟨first, a, second, h1, h2, rfl⟩ | ⟨e, h1, h2⟩, rfl⟩
      · exact .inl ⟨_, a, second, ⟨o, first, h1, rfl⟩, h2, rfl⟩
      · exact .inr ⟨e, ⟨o, rest, h1, rfl⟩, h2⟩
    · rintro (⟨_, a, second, ⟨o, first, h1, rfl⟩, h2, rfl⟩ | ⟨e, ⟨o, rest, h1, rfl⟩, h2⟩)
      · exact ⟨o, first ++ second, .inl ⟨first, a, second, h1, h2, rfl⟩, rfl⟩
      · exact ⟨o, rest, .inr ⟨e, h1, h2⟩, rfl⟩

theorem runs_bind_ok {b : β} : Runs (s.bind f) trace (.ok b) ↔
    ∃ first a second, Runs s first (.ok a) ∧ Runs (f a) second (.ok b) ∧
      trace = first ++ second := by
  simp [runs_bind]

theorem runs_attempt {result : Except ε (Except ε α)} : Runs s.attempt trace result ↔
    ∃ r, Runs s trace r ∧ result = .ok r := by
  induction s generalizing trace with
  | done a => simp [attempt, and_assoc]
  | fail e => simp [attempt, and_assoc]
  | command cmd next ih =>
    simp only [attempt, runs_command, ih]
    constructor
    · rintro ⟨o, rest, ⟨r, h, rfl⟩, rfl⟩
      exact ⟨r, ⟨o, rest, h, rfl⟩, rfl⟩
    · rintro ⟨r, ⟨o, rest, h, rfl⟩, rfl⟩
      exact ⟨o, rest, ⟨r, h, rfl⟩, rfl⟩

theorem runs_attempt_bind {f : Except ε α → Script κ ο ε β} {result : Except ε β} :
    Runs (s.attempt.bind f) trace result ↔
      ∃ first r second, Runs s first r ∧ Runs (f r) second result ∧ trace = first ++ second := by
  simp only [runs_bind, runs_attempt]
  constructor
  · rintro (⟨first, r, second, ⟨_, hr, heq⟩, h2, rfl⟩ | ⟨e, ⟨_, _, heq⟩, _⟩)
    · cases heq
      exact ⟨first, r, second, hr, h2, rfl⟩
    · cases heq
  · rintro ⟨first, r, second, hr, h2, rfl⟩
    exact .inl ⟨first, r, second, ⟨r, hr, rfl⟩, h2, rfl⟩

theorem runs_ignore {result : Except ε Unit} : Runs (ignore cmd) trace result ↔
    ∃ o, trace = [(cmd, o)] ∧ result = .ok () := by
  simp only [ignore, runs_command, runs_done]
  constructor
  · rintro ⟨o, rest, ⟨rfl, rfl⟩, rfl⟩
    exact ⟨o, rfl, rfl⟩
  · rintro ⟨o, rfl, rfl⟩
    exact ⟨o, [], ⟨rfl, rfl⟩, rfl⟩

theorem runs_ignore_bind {f : Unit → Script κ ο ε β} {result : Except ε β} :
    Runs ((ignore cmd).bind f) trace result ↔
      ∃ o rest, Runs (f ()) rest result ∧ trace = (cmd, o) :: rest := by
  simp only [ignore, bind, runs_command]

theorem runs_check_ok {u : Unit} : Runs (check error cmd) trace (.ok u) ↔
    ∃ o, error cmd o = none ∧ trace = [(cmd, o)] := by
  simp only [check, runs_command]
  constructor
  · rintro ⟨o, rest, h, rfl⟩
    cases herror : error cmd o with
    | none =>
      rw [herror] at h
      obtain ⟨rfl, _⟩ := runs_done.mp h
      exact ⟨o, herror, rfl⟩
    | some e =>
      rw [herror] at h
      cases (runs_fail.mp h).2
  · rintro ⟨o, herror, rfl⟩
    exact ⟨o, [], by simp [herror], rfl⟩

/-- Commands that all have to succeed did, where there is a result. -/
theorem runs_checkAll_ok : Runs (checkAll error cmds) trace (.ok ()) ↔
    trace.map Prod.fst = cmds ∧ ∀ e ∈ trace, error e.1 e.2 = none := by
  induction cmds generalizing trace with
  | nil =>
    simp only [checkAll, runs_done, List.map_eq_nil_iff, and_true]
    constructor
    · rintro rfl
      simp
    · exact And.left
  | cons cmd cmds ih =>
    simp only [checkAll, runs_bind_ok, runs_check_ok, ih]
    constructor
    · rintro ⟨_, _, rest, ⟨o, herror, rfl⟩, ⟨rfl, hall⟩, rfl⟩
      exact ⟨rfl, List.forall_mem_cons.mpr ⟨herror, hall⟩⟩
    · rintro ⟨hmap, hall⟩
      obtain ⟨⟨_, o⟩, rest, rfl, rfl, rfl⟩ := List.map_eq_cons_iff.mp hmap
      obtain ⟨herror, hrest⟩ := List.forall_mem_cons.mp hall
      exact ⟨_, (), rest, ⟨o, herror, rfl⟩, ⟨rfl, hrest⟩, rfl⟩

theorem runs_check_error {e : ε} : Runs (check error cmd) trace (.error e) ↔
    ∃ o, error cmd o = some e ∧ trace = [(cmd, o)] := by
  simp only [check, runs_command]
  constructor
  · rintro ⟨o, rest, h, rfl⟩
    cases herror : error cmd o with
    | none =>
      rw [herror] at h
      cases (runs_done.mp h).2
    | some e' =>
      rw [herror] at h
      obtain ⟨rfl, heq⟩ := runs_fail.mp h
      cases heq
      exact ⟨o, herror, rfl⟩
  · rintro ⟨o, herror, rfl⟩
    exact ⟨o, [], by simp [herror], rfl⟩

/-- Where there is an error, it is that of the last command given, and those before it did
succeed. -/
theorem runs_checkAll_error {e : ε} (h : Runs (checkAll error cmds) trace (.error e)) :
    ∃ first cmd o, trace = first ++ [(cmd, o)] ∧ (∀ e ∈ first, error e.1 e.2 = none) ∧
      error cmd o = some e ∧ first.map Prod.fst ++ [cmd] <+: cmds := by
  induction cmds generalizing trace with
  | nil => cases (runs_done.mp h).2
  | cons cmd cmds ih =>
    obtain ⟨_, u, rest, h1, h2, rfl⟩ | ⟨e', h1, heq⟩ := runs_bind.mp h
    · obtain ⟨o, herror, rfl⟩ := runs_check_ok.mp h1
      obtain ⟨first, last, o', rfl, hfirst, hlast, hinit⟩ := ih h2
      exact ⟨(cmd, o) :: first, last, o', rfl, List.forall_mem_cons.mpr ⟨herror, hfirst⟩, hlast,
        List.cons_prefix_cons.mpr ⟨rfl, hinit⟩⟩
    · cases heq
      obtain ⟨o, herror, rfl⟩ := runs_check_error.mp h1
      exact ⟨[], cmd, o, rfl, by simp, herror, List.cons_prefix_cons.mpr ⟨rfl, List.nil_prefix⟩⟩

/-- Every command that the script gives satisfies the predicate. -/
def Issues (P : κ → Prop) (s : Script κ ο ε α) : Prop :=
  ∀ trace result, Runs s trace result → ∀ e ∈ trace, P e.1

variable {P : κ → Prop}

theorem Issues.mono {Q : κ → Prop} (hs : Issues P s) (h : ∀ cmd, P cmd → Q cmd) : Issues Q s :=
  fun trace result hruns e he => h e.1 (hs trace result hruns e he)

theorem issues_done (a : α) : Issues P (done a : Script κ ο ε α) := by
  intro trace result h
  simp [(runs_done.mp h).1]

theorem issues_command {next : ο → Script κ ο ε α} (hcmd : P cmd) (h : ∀ o, Issues P (next o)) :
    Issues P (command cmd next) := by
  intro trace result hruns
  obtain ⟨o, rest, hrest, rfl⟩ := runs_command.mp hruns
  exact List.forall_mem_cons.mpr ⟨hcmd, h o rest result hrest⟩

theorem issues_bind (hs : Issues P s) (hf : ∀ a, Issues P (f a)) : Issues P (s.bind f) := by
  intro trace result h
  obtain ⟨first, a, second, h1, h2, rfl⟩ | ⟨e, h1, _⟩ := runs_bind.mp h
  · exact List.forall_mem_append.mpr ⟨hs first _ h1, hf a second _ h2⟩
  · exact hs trace _ h1

theorem issues_attempt (hs : Issues P s) : Issues P s.attempt := by
  intro trace result h
  obtain ⟨r, hr, _⟩ := runs_attempt.mp h
  exact hs trace r hr

theorem issues_ignore (hcmd : P cmd) : Issues P (ignore cmd : Script κ ο ε Unit) :=
  issues_command hcmd fun _ => issues_done ()

theorem issues_check (hcmd : P cmd) : Issues P (check error cmd) := by
  apply issues_command hcmd
  intro o
  cases error cmd o with
  | none => exact issues_done ()
  | some e =>
    intro trace result h
    simp [(runs_fail.mp h).1]

theorem issues_checkAll (hcmds : ∀ cmd ∈ cmds, P cmd) : Issues P (checkAll error cmds) := by
  induction cmds with
  | nil => exact issues_done ()
  | cons cmd cmds ih =>
    obtain ⟨hcmd, hrest⟩ := List.forall_mem_cons.mp hcmds
    exact issues_bind (issues_check hcmd) fun _ => ih hrest

/-- The script goes on in the same way, whichever of the given commands fail. -/
def Insensitive (D : κ → Prop) : Script κ ο ε α → Prop
  | done _ => True
  | fail _ => True
  | command cmd next => (D cmd → ∀ o o', next o = next o') ∧ ∀ o, Insensitive D (next o)

section Insensitive
variable {D : κ → Prop}

theorem insensitive_ignore : Insensitive D (ignore cmd : Script κ ο ε Unit) :=
  ⟨fun _ _ _ => rfl, fun _ => trivial⟩

theorem insensitive_bind (hs : Insensitive D s) (hf : ∀ a, Insensitive D (f a)) :
    Insensitive D (s.bind f) := by
  induction s with
  | done a => exact hf a
  | fail e => trivial
  | command cmd next ih =>
    exact ⟨fun hD o o' => congrArg (bind · f) (hs.1 hD o o'), fun o => ih o (hs.2 o)⟩

theorem insensitive_attempt (hs : Insensitive D s) : Insensitive D s.attempt := by
  induction s with
  | done a => trivial
  | fail e => trivial
  | command cmd next ih =>
    exact ⟨fun hD o o' => congrArg attempt (hs.1 hD o o'), fun o => ih o (hs.2 o)⟩

/-- A script that gives none of the commands. -/
theorem insensitive_of_issues (hs : Issues (fun cmd => ¬D cmd) s) : Insensitive D s := by
  induction s with
  | done a => trivial
  | fail e => trivial
  | command cmd next ih =>
    have hmem : ∀ o, ∀ trace result, (next o).Runs trace result → ∀ e ∈ (cmd, o) :: trace, ¬D e.1 :=
      fun o trace result hruns => hs _ _ (.command hruns)
    constructor
    · intro hD o
      have hrun := hmem o _ _ (runs_run (fun _ => o) (next o)) (cmd, o) List.mem_cons_self
      exact absurd hD hrun
    · intro o
      apply ih
      exact fun trace result hruns e he => hmem o trace result hruns e (List.mem_cons_of_mem _ he)

/-- Where just the given commands fail, the run is the one where none does. -/
theorem Insensitive.run_eq {outcome : κ → ο} {result : Except ε α} (hs : Insensitive D s)
    (hruns : Runs s trace result) (h : ∀ e ∈ trace, e.2 = outcome e.1 ∨ D e.1) :
    trace.map Prod.fst = (s.run outcome).1.map Prod.fst ∧ result = (s.run outcome).2 := by
  induction hruns with
  | done a => exact ⟨rfl, rfl⟩
  | fail e => exact ⟨rfl, rfl⟩
  | @command cmd next o trace result hruns ih =>
    obtain ⟨he, hrest⟩ := List.forall_mem_cons.mp h
    have hnext : next o = next (outcome cmd) := by
      rcases he with heq | hD
      · exact congrArg next heq
      · exact hs.1 hD _ _
    obtain ⟨htrace, hresult⟩ := ih (hs.2 o) hrest
    rw [hnext] at htrace hresult
    exact ⟨congrArg (cmd :: ·) htrace, hresult⟩

end Insensitive

variable {σ : Type*} {effect : κ → ο → σ → σ} {x : σ}

def after (effect : κ → ο → σ → σ) (x : σ) (trace : List (κ × ο)) : σ :=
  trace.foldl (fun x e => effect e.1 e.2 x) x

@[simp] theorem after_nil : after effect x [] = x := rfl

@[simp] theorem after_cons {o : ο} :
    after effect x ((cmd, o) :: trace) = after effect (effect cmd o x) trace := rfl

theorem after_append {more : List (κ × ο)} :
    after effect x (trace ++ more) = after effect (after effect x trace) more :=
  List.foldl_append

/-- What every step keeps holds after all of them. -/
theorem after_induction {Inv : σ → Prop} (h : Inv x)
    (hstep : ∀ e ∈ trace, ∀ x, Inv x → Inv (effect e.1 e.2 x)) : Inv (after effect x trace) := by
  induction trace generalizing x with
  | nil => exact h
  | cons e trace ih =>
    obtain ⟨he, hrest⟩ := List.forall_mem_cons.mp hstep
    exact ih (he x h) hrest

/-- A part of the state that no step changes is the same after all of them. -/
theorem after_frame {τ : Type*} {part : σ → τ}
    (hstep : ∀ e ∈ trace, ∀ x, part (effect e.1 e.2 x) = part x) :
    part (after effect x trace) = part x := by
  induction trace generalizing x with
  | nil => rfl
  | cons e trace ih =>
    obtain ⟨he, hrest⟩ := List.forall_mem_cons.mp hstep
    exact (ih hrest).trans (he x)

end Script
end TransProxy.Library
