import Mathlib.Data.List.Sort

/-!
# Packet filters

A rule is a list of expressions that are evaluated from left to right: each one goes on,
with the packet changed or not, or ends the rule, or ends the chain with a verdict. A packet
that no rule of a chain has a verdict for is accepted, and one that is accepted by a chain
is seen by the next chain of the hook.
-/
namespace TransProxy.Library

inductive Step (π : Type*) where
  | next (p : π)
  | skip (p : π)
  | verdict (accept : Bool) (p : π)
deriving DecidableEq

def Step.packet {π : Type*} : Step π → π
  | .next p => p
  | .skip p => p
  | .verdict _ p => p

namespace PacketFilter
variable {ε π : Type*} (eval : ε → π → Step π)

/-- An expression that the packet matches or not. -/
def matching (b : Bool) (p : π) : Step π := if b then .next p else .skip p

def evalRule : List ε → π → Step π
  | [], p => .next p
  | e :: rule, p =>
    match eval e p with
    | .next p => evalRule rule p
    | .skip p => .skip p
    | .verdict accept p => .verdict accept p

def evalChain : List (List ε) → π → Bool × π
  | [], p => (true, p)
  | rule :: rules, p =>
    match evalRule eval rule p with
    | .next p => evalChain rules p
    | .skip p => evalChain rules p
    | .verdict accept p => (accept, p)

def evalHook : List (List (List ε)) → π → Option π
  | [], p => some p
  | chain :: chains, p =>
    match evalChain eval chain p with
    | (true, p) => evalHook chains p
    | (false, _) => none

structure Base (η : Type*) where
  hook : η
  priority : ℤ

/-- The chains that are attached to a hook, by their priority. -/
def atHook {χ η : Type*} [DecidableEq η] (base : χ → Base η) (chains : List χ) (hook : η) :
    List χ :=
  (chains.filter (fun c => (base c).hook = hook)).insertionSort
    (fun c d => (base c).priority ≤ (base d).priority)

/-- The rule leaves the packet to the next one as it is. -/
def Passes (rule : List ε) (p : π) : Prop :=
  evalRule eval rule p = .skip p ∨ evalRule eval rule p = .next p

variable {eval} {rule : List ε} {rules more : List (List ε)} {p : π}

theorem evalRule_cons (e : ε) : evalRule eval (e :: rule) p =
    match eval e p with
    | .next p => evalRule eval rule p
    | .skip p => .skip p
    | .verdict accept p => .verdict accept p := rfl

theorem evalRule_append {rule' : List ε} : evalRule eval (rule ++ rule') p =
    match evalRule eval rule p with
    | .next p => evalRule eval rule' p
    | .skip p => .skip p
    | .verdict accept p => .verdict accept p := by
  induction rule generalizing p with
  | nil => rfl
  | cons e rule ih =>
    rw [List.cons_append, evalRule_cons, evalRule_cons]
    cases eval e p with
    | next p => exact ih
    | skip p => rfl
    | verdict accept p => rfl

theorem evalChain_cons_of_passes (h : Passes eval rule p) :
    evalChain eval (rule :: rules) p = evalChain eval rules p := by
  rcases h with h | h
  · rw [evalChain, h]
  · rw [evalChain, h]

theorem evalChain_cons_of_verdict {accept : Bool} {p' : π}
    (h : evalRule eval rule p = .verdict accept p') :
    evalChain eval (rule :: rules) p = (accept, p') := by
  rw [evalChain, h]

theorem evalChain_append_of_passes (h : ∀ rule ∈ rules, Passes eval rule p) :
    evalChain eval (rules ++ more) p = evalChain eval more p := by
  induction rules with
  | nil => rfl
  | cons rule rules ih =>
    obtain ⟨hrule, hrules⟩ := List.forall_mem_cons.mp h
    rw [List.cons_append, evalChain_cons_of_passes hrule, ih hrules]

theorem evalChain_of_passes (h : ∀ rule ∈ rules, Passes eval rule p) :
    evalChain eval rules p = (true, p) := by
  rw [← List.append_nil rules, evalChain_append_of_passes h, evalChain]

theorem not_passes_of_verdict {accept : Bool} {p' : π}
    (h : evalRule eval rule p = .verdict accept p') : ¬Passes eval rule p := by
  rintro (hpass | hpass)
  · rw [h] at hpass
    cases hpass
  · rw [h] at hpass
    cases hpass

/-- Where every rule passes the packet or has a verdict of some kind, the chain has such a
verdict unless all rules pass the packet. -/
theorem evalChain_cases {V : Bool → π → Prop} (h : ∀ rule ∈ rules, Passes eval rule p ∨
      ∃ accept p', V accept p' ∧ evalRule eval rule p = .verdict accept p') :
    ((∀ rule ∈ rules, Passes eval rule p) ∧ evalChain eval rules p = (true, p)) ∨
      (∃ rule ∈ rules, ¬Passes eval rule p) ∧
        ∃ accept p', V accept p' ∧ evalChain eval rules p = (accept, p') := by
  induction rules with
  | nil => exact .inl ⟨by simp, rfl⟩
  | cons rule rules ih =>
    obtain ⟨hrule, hrules⟩ := List.forall_mem_cons.mp h
    rcases hrule with hpass | ⟨accept, p', hv, hverdict⟩
    · rw [evalChain_cons_of_passes hpass]
      rcases ih hrules with ⟨hall, heq⟩ | ⟨⟨r, hr, hnot⟩, hfound⟩
      · exact .inl ⟨List.forall_mem_cons.mpr ⟨hpass, hall⟩, heq⟩
      · exact .inr ⟨⟨r, List.mem_cons_of_mem _ hr, hnot⟩, hfound⟩
    · exact .inr ⟨⟨rule, List.mem_cons_self, not_passes_of_verdict hverdict⟩, accept, p', hv,
        evalChain_cons_of_verdict hverdict⟩

/-- If the rules with a verdict all have the same one, it is that of the chain as soon as
there is such a rule. -/
theorem evalChain_uniform {accept : Bool} {p' : π}
    (h : ∀ rule ∈ rules, Passes eval rule p ∨ evalRule eval rule p = .verdict accept p')
    (hsome : ∃ rule ∈ rules, ¬Passes eval rule p) : evalChain eval rules p = (accept, p') := by
  have hcases := evalChain_cases (V := fun a q => a = accept ∧ q = p') fun rule hrule =>
    (h rule hrule).imp_right fun hv => ⟨accept, p', ⟨rfl, rfl⟩, hv⟩
  rcases hcases with ⟨hall, _⟩ | ⟨_, _, _, ⟨rfl, rfl⟩, heq⟩
  · obtain ⟨rule, hrule, hnot⟩ := hsome
    exact absurd (hall rule hrule) hnot
  · exact heq

theorem passes_append {rule' : List ε} (h : Passes eval rule p) (h' : Passes eval rule' p) :
    Passes eval (rule ++ rule') p := by
  rcases h with h | h
  · left
    rw [evalRule_append, h]
  · rw [Passes, evalRule_append, h]
    exact h'

theorem evalChain_append_of_verdict {accept : Bool} {p' : π} (h : ∀ rule ∈ rules, Passes eval rule p)
    (hrule : evalRule eval rule p = .verdict accept p') :
    evalChain eval (rules ++ rule :: more) p = (accept, p') := by
  rw [evalChain_append_of_passes h, evalChain_cons_of_verdict hrule]

variable (eval) in
/-- The rule passes the packet or accepts it as it is. -/
def Keeps (rule : List ε) (p : π) : Prop :=
  Passes eval rule p ∨ evalRule eval rule p = .verdict true p

theorem keeps_append {rule' : List ε} (h : Passes eval rule p) (h' : Keeps eval rule' p) :
    Keeps eval (rule ++ rule') p := by
  rcases h with h | h
  · left
    left
    rw [evalRule_append, h]
  · rw [Keeps, Passes, evalRule_append, h]
    exact h'

/-- A packet that some rule accepts, and that the rules before it keep, is accepted by any
beginning of the chain. -/
theorem evalChain_of_prefix {chain : List (List ε)} (h : ∀ rule ∈ rules, Keeps eval rule p)
    (hrule : evalRule eval rule p = .verdict true p) (hchain : chain <+: rules ++ rule :: more) :
    evalChain eval chain p = (true, p) := by
  induction chain generalizing rules with
  | nil => rfl
  | cons first chain ih =>
    cases rules with
    | nil =>
      obtain ⟨rfl, _⟩ := List.cons_prefix_cons.mp hchain
      exact evalChain_cons_of_verdict hrule
    | cons first' rules =>
      obtain ⟨rfl, hrest⟩ := List.cons_prefix_cons.mp hchain
      obtain ⟨hfirst, hrules⟩ := List.forall_mem_cons.mp h
      rcases hfirst with hpass | haccept
      · rw [evalChain_cons_of_passes hpass, ih hrules hrest]
      · exact evalChain_cons_of_verdict haccept

theorem evalChain_append_of_keeps (h : ∀ rule ∈ rules, Keeps eval rule p)
    (hmore : evalChain eval more p = (true, p)) : evalChain eval (rules ++ more) p = (true, p) := by
  induction rules with
  | nil => exact hmore
  | cons rule rules ih =>
    obtain ⟨hrule, hrules⟩ := List.forall_mem_cons.mp h
    rw [List.cons_append]
    rcases hrule with hpass | haccept
    · rw [evalChain_cons_of_passes hpass, ih hrules]
    · rw [evalChain_cons_of_verdict haccept]

theorem evalChain_of_keeps (h : ∀ rule ∈ rules, Keeps eval rule p) :
    evalChain eval rules p = (true, p) := by
  rw [← List.append_nil rules]
  exact evalChain_append_of_keeps h rfl

theorem evalHook_cons {chain : List (List ε)} {chains : List (List (List ε))} :
    evalHook eval (chain :: chains) p =
      match evalChain eval chain p with
      | (true, p) => evalHook eval chains p
      | (false, _) => none := rfl

section Invariant
variable {Inv : π → Prop}

theorem evalRule_invariant (h : ∀ e ∈ rule, ∀ p, Inv p → Inv (eval e p).packet) (hp : Inv p) :
    Inv (evalRule eval rule p).packet := by
  induction rule generalizing p with
  | nil => exact hp
  | cons e rule ih =>
    obtain ⟨he, hrule⟩ := List.forall_mem_cons.mp h
    have hnext := he p hp
    rw [evalRule_cons]
    cases heval : eval e p with
    | next q =>
      rw [heval] at hnext
      exact ih hrule hnext
    | skip q =>
      rw [heval] at hnext
      exact hnext
    | verdict accept q =>
      rw [heval] at hnext
      exact hnext

theorem evalChain_invariant (h : ∀ rule ∈ rules, ∀ e ∈ rule, ∀ p, Inv p → Inv (eval e p).packet)
    (hp : Inv p) : Inv (evalChain eval rules p).2 := by
  induction rules generalizing p with
  | nil => exact hp
  | cons rule rules ih =>
    obtain ⟨hrule, hrules⟩ := List.forall_mem_cons.mp h
    have hnext := evalRule_invariant hrule hp
    rw [evalChain]
    cases heval : evalRule eval rule p with
    | next q =>
      rw [heval] at hnext
      exact ih hrules hnext
    | skip q =>
      rw [heval] at hnext
      exact ih hrules hnext
    | verdict accept q =>
      rw [heval] at hnext
      exact hnext

end Invariant

/-- Where all rules that decide decide the same. -/
theorem findSome?_eq_ite {ρ δ : Type*} {decision : ρ → Option δ} {ruleset : List ρ} {d : δ}
    {P : Prop} [Decidable P] (h : ∀ r ∈ ruleset, decision r = none ∨ decision r = some d)
    (hP : (∃ r ∈ ruleset, decision r = some d) ↔ P) :
    ruleset.findSome? decision = if P then some d else none := by
  have hnone : ruleset.findSome? decision = none ↔ ¬P := by
    rw [List.findSome?_eq_none_iff, ← hP]
    constructor
    · rintro hall ⟨r, hr, hd⟩
      rw [hall r hr] at hd
      cases hd
    · exact fun hno r hr => (h r hr).resolve_right fun hd => hno ⟨r, hr, hd⟩
  split_ifs with hp
  · cases hfound : ruleset.findSome? decision with
    | none => exact absurd hp (hnone.mp hfound)
    | some e =>
      obtain ⟨r, hr, hd⟩ := List.exists_of_findSome?_eq_some hfound
      rcases h r hr with hno | hsome
      · rw [hno] at hd
        cases hd
      · exact hd.symm.trans hsome
  · exact hnone.mpr hp

section LastMatch
variable {ρ δ : Type*} {decision : ρ → Option (Bool × δ)} {quick : Bool} {d : δ} {r : ρ}
  {ruleset rest : List ρ}

/-- The decision of the last rule that has one, unless an earlier rule with one is quick. -/
def lastMatch (decision : ρ → Option (Bool × δ)) : List ρ → Option δ
  | [] => none
  | r :: rest =>
    match decision r with
    | some (true, d) => some d
    | some (false, d) => (lastMatch decision rest).or (some d)
    | none => lastMatch decision rest

theorem lastMatch_cons_of_none (h : decision r = none) :
    lastMatch decision (r :: rest) = lastMatch decision rest := by
  rw [lastMatch, h]

theorem lastMatch_cons_of_quick (h : decision r = some (true, d)) :
    lastMatch decision (r :: rest) = some d := by
  rw [lastMatch, h]

theorem lastMatch_append_of_none (h : ∀ r ∈ ruleset, decision r = none) :
    lastMatch decision (ruleset ++ rest) = lastMatch decision rest := by
  induction ruleset with
  | nil => rfl
  | cons r ruleset ih =>
    obtain ⟨hr, hruleset⟩ := List.forall_mem_cons.mp h
    rw [List.cons_append, lastMatch_cons_of_none hr, ih hruleset]

end LastMatch

end PacketFilter
end TransProxy.Library
