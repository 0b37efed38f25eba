import Mathlib.Data.Nat.Init
import Mathlib.Order.Basic

/-!
# Programs that may fault

Indexing, slicing and subtraction as a program does them, with a fault where they would stop it,
and loops, which fault when they use up their fuel. A program completes if there is an amount of
fuel from which on it ends in a value; there is one rule for each operation, and a loop needs a
measure that falls.
-/
namespace TransProxy.Library

inductive Checked.Fault where
  | index
  | slice
  | underflow
  | endless
deriving DecidableEq

/-- A computation, given the fuel of each of its loops. -/
abbrev Checked := ReaderT ℕ (Except Checked.Fault)

namespace Checked
variable {α β σ : Type}

def fault (f : Fault) : Checked α := fun _ => .error f

/-- `xs[i]`. -/
def index (xs : List α) (i : ℕ) : Checked α := if h : i < xs.length then pure xs[i] else fault .index

/-- `xs[i] = x`. -/
def setIndex (xs : List α) (i : ℕ) (x : α) : Checked (List α) :=
  if i < xs.length then pure (xs.set i x) else fault .index

/-- `&xs[lo..hi]`. -/
def range (xs : List α) (lo hi : ℕ) : Checked (List α) :=
  if lo ≤ hi ∧ hi ≤ xs.length then pure ((xs.drop lo).take (hi - lo)) else fault .slice

/-- `xs[lo..hi].copy_from_slice(ys)`, which needs as many elements as it replaces. -/
def setRange (xs : List α) (lo hi : ℕ) (ys : List α) : Checked (List α) :=
  if lo ≤ hi ∧ hi ≤ xs.length ∧ ys.length = hi - lo then pure (xs.take lo ++ ys ++ xs.drop hi)
  else fault .slice

/-- `a - b`. -/
def sub (a b : ℕ) : Checked ℕ := if b ≤ a then pure (a - b) else fault .underflow

inductive Step (σ β : Type) where
  | next (s : σ)
  | done (b : β)

/-- What holds of the next state, or of the result. -/
def Step.Meets (P : σ → Prop) (Q : β → Prop) : Step σ β → Prop
  | next s => P s
  | done b => Q b

/-- At most so many rounds, and then the last one. -/
def iterate (body : σ → Checked (Step σ β)) (last : σ → Checked β) : ℕ → σ → Checked β
  | 0, s => last s
  | n + 1, s => do
    match ← body s with
    | .next s => iterate body last n s
    | .done b => return b

/-- `for _ in 0..n`, with what is left at its end. -/
def forRange (body : σ → Checked (Step σ β)) (atEnd : σ → β) (n : ℕ) (s : σ) : Checked β :=
  iterate body (fun s => pure (atEnd s)) n s

/-- `loop`, or `while`, whose condition is the first thing in the body. -/
def loop (body : σ → Checked (Step σ β)) (s : σ) : Checked β :=
  fun fuel => iterate body (fun _ => fault .endless) fuel s fuel

section Apply
variable {m : Checked α} {fuel n : ℕ} {body : σ → Checked (Step σ β)} {last : σ → Checked β}

theorem bind_apply {a : α} (h : m fuel = .ok a) (f : α → Checked β) :
    (m >>= f) fuel = f a fuel := by
  change m fuel >>= (fun a => f a fuel) = _
  rw [h]
  rfl

theorem iterate_next {s s' : σ} (h : body s fuel = .ok (.next s')) :
    iterate body last (n + 1) s fuel = iterate body last n s' fuel :=
  bind_apply h _

theorem iterate_done {s : σ} {b : β} (h : body s fuel = .ok (.done b)) :
    iterate body last (n + 1) s fuel = .ok b :=
  bind_apply h _

end Apply

/-- With enough fuel, the computation ends without a fault, in a value with the property. -/
def Completes (m : Checked α) (P : α → Prop) : Prop :=
  ∃ least a, P a ∧ ∀ fuel, least ≤ fuel → m fuel = .ok a

namespace Completes
variable {m : Checked α} {P Q : α → Prop} {R : β → Prop}

theorem mono (h : Completes m P) (hPQ : ∀ a, P a → Q a) : Completes m Q := by
  obtain ⟨least, a, ha, hm⟩ := h
  exact ⟨least, a, hPQ a ha, hm⟩

protected theorem pure {a : α} (h : P a) : Completes (pure a) P := ⟨0, a, h, fun _ _ => rfl⟩

protected theorem bind {f : α → Checked β} (h : Completes m (fun a => Completes (f a) R)) :
    Completes (m >>= f) R := by
  obtain ⟨least, a, ⟨least', b, hb, hf⟩, hm⟩ := h
  refine ⟨max least least', b, hb, fun fuel hfuel => ?_⟩
  rw [bind_apply (hm fuel (Nat.le_trans (Nat.le_max_left _ _) hfuel))]
  exact hf fuel (Nat.le_trans (Nat.le_max_right _ _) hfuel)

/-- A computation whose value is known. -/
theorem bind_eq {f : α → Checked β} {a : α} (h : Completes m (· = a)) (hf : Completes (f a) R) :
    Completes (m >>= f) R := by
  refine .bind (h.mono ?_)
  rintro value rfl
  exact hf

/-- An early return, on both sides. -/
theorem guard {c : Prop} [Decidable c] {early : α} {rest : ¬c → α}
    (h : ∀ hc : ¬c, Completes m (· = rest hc)) :
    Completes (if c then Pure.pure early else m) (· = if hc : c then early else rest hc) := by
  by_cases hc : c
  · rw [if_pos hc, dif_pos hc]
    exact .pure rfl
  · rw [if_neg hc, dif_neg hc]
    exact h hc

section Operations
variable {xs ys : List α} {i lo hi a b : ℕ} {x : α}

theorem index (h : i < xs.length) (hP : P xs[i]) : Completes (index xs i) P := by
  rw [Checked.index, dif_pos h]
  exact .pure hP

theorem setIndex {S : List α → Prop} (h : i < xs.length) (hS : S (xs.set i x)) :
    Completes (setIndex xs i x) S := by
  rw [Checked.setIndex, if_pos h]
  exact .pure hS

theorem range {S : List α → Prop} (hlo : lo ≤ hi) (hhi : hi ≤ xs.length)
    (hS : S ((xs.drop lo).take (hi - lo))) : Completes (range xs lo hi) S := by
  rw [Checked.range, if_pos ⟨hlo, hhi⟩]
  exact .pure hS

theorem setRange {S : List α → Prop} (hlo : lo ≤ hi) (hhi : hi ≤ xs.length)
    (hlen : ys.length = hi - lo) (hS : S (xs.take lo ++ ys ++ xs.drop hi)) :
    Completes (setRange xs lo hi ys) S := by
  rw [Checked.setRange, if_pos ⟨hlo, hhi, hlen⟩]
  exact .pure hS

theorem sub {S : ℕ → Prop} (h : b ≤ a) (hS : S (a - b)) : Completes (sub a b) S := by
  rw [Checked.sub, if_pos h]
  exact .pure hS

end Operations

section Loops
variable {body : σ → Checked (Step σ β)} {s : σ}

/-- One round. -/
theorem iterate_succ {last : σ → Checked β} {n : ℕ}
    (h : Completes (body s) (Step.Meets (fun s => Completes (iterate body last n s) R) R)) :
    Completes (iterate body last (n + 1) s) R := by
  refine .bind (h.mono fun step hstep => ?_)
  cases step with
  | next s => exact hstep
  | done b => exact .pure hstep

/-- A counted loop ends; the invariant knows how many rounds are left. -/
theorem forRange {atEnd : σ → β} (Inv : ℕ → σ → Prop)
    (hbody : ∀ n s, Inv (n + 1) s → Completes (body s) (Step.Meets (Inv n) R))
    (hend : ∀ s, Inv 0 s → R (atEnd s)) {n : ℕ} (h : Inv n s) :
    Completes (forRange body atEnd n s) R := by
  rw [Checked.forRange]
  induction n generalizing s with
  | zero => exact .pure (hend s h)
  | succ n ih =>
    refine iterate_succ ((hbody n s h).mono fun step hstep => ?_)
    cases step with
    | next s => exact ih hstep
    | done b => exact hstep

/-- A loop whose measure falls ends. -/
theorem loop (μ : σ → ℕ) (Inv : σ → Prop)
    (hbody : ∀ s, Inv s → Completes (body s) (Step.Meets (fun s' => Inv s' ∧ μ s' < μ s) R))
    (h : Inv s) : Completes (loop body s) R := by
  -- the rounds of this loop and the fuel of those in its body are bounded separately
  have hrounds : ∀ n s, Inv s → μ s < n → ∃ least b, R b ∧ ∀ rounds fuel, n ≤ rounds →
      least ≤ fuel → iterate body (fun _ => fault .endless) rounds s fuel = .ok b := by
    intro n
    induction n with
    | zero => exact fun s _ hμ => absurd hμ (Nat.not_lt_zero _)
    | succ n ih =>
      intro s hs hμ
      obtain ⟨least, step, hstep, hrun⟩ := hbody s hs
      cases step with
      | next s' =>
        obtain ⟨hs', hfall⟩ := hstep
        obtain ⟨least', b, hb, hrest⟩ := ih s' hs' (by omega)
        refine ⟨max least least', b, hb, fun rounds fuel hrounds hfuel => ?_⟩
        obtain ⟨rounds, rfl⟩ := Nat.exists_eq_succ_of_ne_zero (show rounds ≠ 0 by omega)
        rw [iterate_next (hrun fuel (by omega))]
        exact hrest rounds fuel (by omega) (by omega)
      | done b =>
        refine ⟨least, b, hstep, fun rounds fuel hrounds hfuel => ?_⟩
        obtain ⟨rounds, rfl⟩ := Nat.exists_eq_succ_of_ne_zero (show rounds ≠ 0 by omega)
        exact iterate_done (hrun fuel hfuel)
  obtain ⟨least, b, hb, hrun⟩ := hrounds (μ s + 1) s h (Nat.lt_succ_self _)
  exact ⟨max (μ s + 1) least, b, hb, fun fuel hfuel => hrun fuel fuel (by omega) (by omega)⟩

end Loops
end Completes
end Checked
end TransProxy.Library
