import TransProxy.Library.Script

/-!
# Scripts that are cut off

A run may end after any of its commands, and which outcomes a command can have may depend
on the state it meets. A specification says what holds wherever the run is cut off, and
what holds together with the result where it is not.
-/
namespace TransProxy.Library.Script
variable {κ ο ε α β : Type} {σ : Type*}

/-- Every outcome is one that the state allows. -/
def Allows (effect : κ → ο → σ → σ) (Allowed : σ → κ → ο → Prop) : σ → List (κ × ο) → Prop
  | _, [] => True
  | x, e :: trace => Allowed x e.1 e.2 ∧ Allows effect Allowed (effect e.1 e.2 x) trace

section Allows
variable {effect : κ → ο → σ → σ} {Allowed Allowed' : σ → κ → ο → Prop} {x : σ}
  {trace more : List (κ × ο)}

theorem allows_append : Allows effect Allowed x (trace ++ more) ↔
    Allows effect Allowed x trace ∧ Allows effect Allowed (after effect x trace) more := by
  induction trace generalizing x with
  | nil => simp [Allows]
  | cons e trace ih =>
    simp only [List.cons_append, Allows, ih, and_assoc]
    rfl

theorem Allows.mono (h : Allows effect Allowed x trace)
    (hmono : ∀ x cmd o, Allowed x cmd o → Allowed' x cmd o) : Allows effect Allowed' x trace := by
  induction trace generalizing x with
  | nil => trivial
  | cons e trace ih => exact ⟨hmono _ _ _ h.1, ih h.2⟩

theorem Allows.forall_mem {P : κ → ο → Prop} (h : Allows effect Allowed x trace)
    (hP : ∀ x cmd o, Allowed x cmd o → P cmd o) : ∀ e ∈ trace, P e.1 e.2 := by
  induction trace generalizing x with
  | nil => simp
  | cons e trace ih => exact List.forall_mem_cons.mpr ⟨hP _ _ _ h.1, ih h.2⟩

end Allows

/-- From a state with `P`, `C` holds after any beginning of a run, and `Q` after all of it. -/
def CrashTriple (effect : κ → ο → σ → σ) (Allowed : σ → κ → ο → Prop) (P : σ → Prop)
    (s : Script κ ο ε α) (C : σ → Prop) (Q : Except ε α → σ → Prop) : Prop :=
  ∀ x trace rest result, P x → s.Runs (trace ++ rest) result → Allows effect Allowed x trace →
    C (after effect x trace) ∧ (rest = [] → Q result (after effect x trace))

section Rules
variable {effect : κ → ο → σ → σ} {Allowed : σ → κ → ο → Prop} {P C : σ → Prop}
  {s : Script κ ο ε α} {Q : Except ε α → σ → Prop}

theorem crashTriple_done {a : α} (hC : ∀ x, P x → C x) (hQ : ∀ x, P x → Q (.ok a) x) :
    CrashTriple effect Allowed P (done a) C Q := by
  intro x trace rest result hx hruns _
  obtain ⟨hnil, rfl⟩ := runs_done.mp hruns
  obtain ⟨rfl, rfl⟩ := List.append_eq_nil_iff.mp hnil
  exact ⟨hC x hx, fun _ => hQ x hx⟩

theorem crashTriple_fail {e : ε} (hC : ∀ x, P x → C x) (hQ : ∀ x, P x → Q (.error e) x) :
    CrashTriple effect Allowed P (fail e) C Q := by
  intro x trace rest result hx hruns _
  obtain ⟨hnil, rfl⟩ := runs_fail.mp hruns
  obtain ⟨rfl, rfl⟩ := List.append_eq_nil_iff.mp hnil
  exact ⟨hC x hx, fun _ => hQ x hx⟩

/-- What a command makes of the state is where the rest goes on from. -/
theorem crashTriple_command {cmd : κ} {next : ο → Script κ ο ε α} (hC : ∀ x, P x → C x)
    {R : ο → σ → Prop} (hcmd : ∀ x o, P x → Allowed x cmd o → R o (effect cmd o x))
    (hnext : ∀ o, CrashTriple effect Allowed (R o) (next o) C Q) :
    CrashTriple effect Allowed P (command cmd next) C Q := by
  intro x trace rest result hx hruns hallows
  obtain ⟨o, tail, htail, heq⟩ := runs_command.mp hruns
  cases trace with
  | nil =>
    refine ⟨hC x hx, fun hrest => ?_⟩
    rw [hrest] at heq
    cases heq
  | cons e trace =>
    obtain ⟨rfl, rfl⟩ := List.cons.inj heq
    exact hnext o _ trace rest result (hcmd x o hx hallows.1) htail hallows.2

theorem crashTriple_bind {f : α → Script κ ο ε β} {R : Except ε α → σ → Prop}
    {Q : Except ε β → σ → Prop} (hs : CrashTriple effect Allowed P s C R)
    (hf : ∀ a, CrashTriple effect Allowed (R (.ok a)) (f a) C Q)
    (herror : ∀ e x, R (.error e) x → Q (.error e) x) :
    CrashTriple effect Allowed P (s.bind f) C Q := by
  intro x trace rest result hx hruns hallows
  obtain ⟨first, a, second, h1, h2, heq⟩ | ⟨e, h1, rfl⟩ := runs_bind.mp hruns
  · obtain ⟨cut, rfl, rfl⟩ | ⟨cut, rfl, rfl⟩ := List.append_eq_append_iff.mp heq
    · -- cut off in the first part, or at its end
      obtain ⟨hcrash, hend⟩ := hs x trace cut (.ok a) hx h1 hallows
      refine ⟨hcrash, fun hrest => ?_⟩
      obtain ⟨rfl, rfl⟩ := List.append_eq_nil_iff.mp hrest
      exact (hf a _ [] [] result (hend rfl) h2 trivial).2 rfl
    · obtain ⟨hfirst, hsecond⟩ := allows_append.mp hallows
      have hmid := (hs x first [] (.ok a) hx (by simpa using h1) hfirst).2 rfl
      rw [after_append]
      exact hf a _ cut rest result hmid h2 hsecond
  · obtain ⟨hcrash, hend⟩ := hs x trace rest (.error e) hx h1 hallows
    exact ⟨hcrash, fun hrest => herror e _ (hend hrest)⟩

theorem crashTriple_attempt {Q : Except ε (Except ε α) → σ → Prop}
    (hs : CrashTriple effect Allowed P s C fun r => Q (.ok r)) :
    CrashTriple effect Allowed P s.attempt C Q := by
  intro x trace rest result hx hruns hallows
  obtain ⟨r, hr, rfl⟩ := runs_attempt.mp hruns
  exact hs x trace rest r hx hr hallows

theorem crashTriple_ignore {cmd : κ} {Q : Except ε Unit → σ → Prop} (hC : ∀ x, P x → C x)
    (hcmd : ∀ x o, P x → Allowed x cmd o → C (effect cmd o x) ∧ Q (.ok ()) (effect cmd o x)) :
    CrashTriple effect Allowed P (ignore cmd) C Q :=
  crashTriple_command (R := fun _ x => C x ∧ Q (.ok ()) x) hC hcmd fun _ =>
    crashTriple_done (fun _ h => h.1) fun _ h => h.2

/-- A command that has to succeed; where it does not, the state is what its failure leaves. -/
theorem crashTriple_check {error : κ → ο → Option ε} {cmd : κ} {Q : Except ε Unit → σ → Prop}
    (hC : ∀ x, P x → C x)
    (hok : ∀ x o, P x → Allowed x cmd o → error cmd o = none →
      C (effect cmd o x) ∧ Q (.ok ()) (effect cmd o x))
    (herror : ∀ x o e, P x → Allowed x cmd o → error cmd o = some e →
      C (effect cmd o x) ∧ Q (.error e) (effect cmd o x)) :
    CrashTriple effect Allowed P (check error cmd) C Q := by
  apply crashTriple_command
    (R := fun o x => C x ∧ Q ((error cmd o).elim (.ok ()) Except.error) x) hC
  · intro x o hx hallowed
    cases hout : error cmd o with
    | none => exact hok x o hx hallowed hout
    | some e => exact herror x o e hx hallowed hout
  · intro o
    cases error cmd o with
    | none => exact crashTriple_done (fun _ h => h.1) fun _ h => h.2
    | some e => exact crashTriple_fail (fun _ h => h.1) fun _ h => h.2

/-- What each command that a script can give keeps, a run keeps. -/
theorem crashTriple_of_issues {I : κ → Prop} (hs : s.Issues I)
    (hstep : ∀ x cmd o, P x → I cmd → Allowed x cmd o → P (effect cmd o x)) :
    CrashTriple effect Allowed P s P fun _ => P := by
  intro x trace rest result hx hruns hallows
  have hissued : ∀ e ∈ trace, I e.1 := fun e he => hs _ _ hruns e (List.mem_append_left _ he)
  have hafter : P (after effect x trace) := by
    clear hruns
    induction trace generalizing x with
    | nil => exact hx
    | cons e trace ih =>
      obtain ⟨he, hrest⟩ := List.forall_mem_cons.mp hissued
      exact ih _ (hstep x e.1 e.2 hx he hallows.1) hallows.2 hrest
  exact ⟨hafter, fun _ => hafter⟩

end Rules

/-- `C` holds wherever the script is cut off, and `R` at its end if it has a result. -/
def Upholds (effect : κ → ο → σ → σ) (Allowed : σ → κ → ο → Prop) (C P : σ → Prop)
    (s : Script κ ο ε α) (R : α → σ → Prop) : Prop :=
  CrashTriple effect Allowed P s C fun r x => ∀ a, r = .ok a → R a x

section Upholds
variable {effect : κ → ο → σ → σ} {Allowed : σ → κ → ο → Prop} {C P P' : σ → Prop}
  {s : Script κ ο ε α}

theorem Upholds.mono {R R' : α → σ → Prop} (hs : Upholds effect Allowed C P s R)
    (hP : ∀ x, P' x → P x) (hR : ∀ a x, R a x → R' a x) : Upholds effect Allowed C P' s R' := by
  intro x trace rest result hx hruns hallows
  obtain ⟨hcut, hend⟩ := hs x trace rest result (hP x hx) hruns hallows
  exact ⟨hcut, fun hrest a ha => hR a _ (hend hrest a ha)⟩

theorem upholds_done {a : α} {R : α → σ → Prop} (hP : ∀ x, P x → C x) (hR : ∀ x, P x → R a x) :
    Upholds effect Allowed C P (done a : Script κ ο ε α) R := by
  apply crashTriple_done hP
  intro x hx b hb
  cases hb
  exact hR x hx

theorem upholds_fail {e : ε} {R : α → σ → Prop} (hP : ∀ x, P x → C x) :
    Upholds effect Allowed C P (fail e : Script κ ο ε α) R := by
  apply crashTriple_fail hP
  intro x _ a ha
  cases ha

/-- What does not depend on the state stays as it is. -/
theorem upholds_const {p : Prop} :
    Upholds effect Allowed (fun _ => True) (fun _ => p) s fun _ _ => p :=
  fun _ _ _ _ hp _ _ => ⟨trivial, fun _ _ _ => hp⟩

theorem upholds_bind {f : α → Script κ ο ε β} {R : α → σ → Prop} {S : β → σ → Prop}
    (hs : Upholds effect Allowed C P s R) (hf : ∀ a, Upholds effect Allowed C (R a) (f a) S) :
    Upholds effect Allowed C P (s.bind f) S := by
  apply crashTriple_bind hs
  · intro a x trace rest result hx
    exact hf a x trace rest result (hx a rfl)
  · intro e x _ b hb
    cases hb

theorem upholds_command {cmd : κ} {next : ο → Script κ ο ε α} {R : ο → σ → Prop}
    {S : α → σ → Prop} (hP : ∀ x, P x → C x)
    (hcmd : ∀ x o, P x → Allowed x cmd o → R o (effect cmd o x))
    (hnext : ∀ o, Upholds effect Allowed C (R o) (next o) S) :
    Upholds effect Allowed C P (command cmd next) S :=
  crashTriple_command hP hcmd hnext

theorem upholds_check {error : κ → ο → Option ε} {cmd : κ} {R : σ → Prop}
    (hP : ∀ x, P x → C x)
    (hstep : ∀ x o, P x → Allowed x cmd o →
      C (effect cmd o x) ∧ (error cmd o = none → R (effect cmd o x))) :
    Upholds effect Allowed C P (check error cmd) fun _ => R := by
  apply crashTriple_check hP
  · intro x o hx hallowed hok
    obtain ⟨hcut, hend⟩ := hstep x o hx hallowed
    exact ⟨hcut, fun _ _ => hend hok⟩
  · intro x o e hx hallowed _
    refine ⟨(hstep x o hx hallowed).1, fun a ha => ?_⟩
    cases ha

theorem upholds_ignore {cmd : κ} {R : σ → Prop} (hP : ∀ x, P x → C x)
    (hstep : ∀ x o, P x → Allowed x cmd o → C (effect cmd o x) ∧ R (effect cmd o x)) :
    Upholds effect Allowed C P (ignore cmd : Script κ ο ε Unit) fun _ => R := by
  apply crashTriple_ignore hP
  intro x o hx hallowed
  obtain ⟨hcut, hend⟩ := hstep x o hx hallowed
  exact ⟨hcut, fun _ _ => hend⟩

/-- A run to its end has what its success establishes. -/
theorem Upholds.result {R : α → σ → Prop} (hs : Upholds effect Allowed C P s R) {x : σ}
    (hx : P x) {trace : List (κ × ο)} {a : α} (hruns : s.Runs trace (.ok a))
    (hallows : Allows effect Allowed x trace) : R a (after effect x trace) := by
  obtain ⟨_, hend⟩ := hs x trace [] (.ok a) hx (by rwa [List.append_nil]) hallows
  exact hend rfl a rfl

end Upholds
end TransProxy.Library.Script
