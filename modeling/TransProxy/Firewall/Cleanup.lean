import TransProxy.Firewall.History
import TransProxy.Library.Crash

/-!
# What is left to clean up

Setups and teardowns may stop after any command. Where a deletion fails only for want of
something to delete, the TPROXY rule is never there twice, and one teardown removes all
that is there.
-/
namespace TransProxy.Firewall
open Library Script

inductive Cmd.Deletion : Cmd → Prop
  | deleteTable (f : NftFamily) : Deletion (.deleteTable f)
  | ruleDel (f : NftFamily) : Deletion (.ruleDel f)
  | routeFlush (f : NftFamily) : Deletion (.routeFlush f)

def Cmd.Finds (host : Host) : Cmd → Prop
  | .deleteTable f => (host.tables f).isSome
  | .ruleDel f => 0 < host.markRules f
  | .routeFlush f => host.markRoute f = true
  | .addTable _ => False
  | .addChain _ _ => False
  | .addRule _ _ _ => False
  | .setForwarding _ _ => False
  | .ruleAdd _ => False
  | .routeAdd _ => False

/-- A deletion fails only if there is nothing to delete. -/
def Cmd.Honest (host : Host) (cmd : Cmd) (o : Outcome) : Prop := cmd.Finds host → o = .success

def Host.Honest (host : Host) (trace : List (Cmd × Outcome)) : Prop :=
  Allows Cmd.effect Cmd.Honest host trace

section Deletions
variable {host : Host} {cmd : Cmd} {o : Outcome} {trace : List (Cmd × Outcome)}

theorem Cmd.Deletion.apply_of_not_finds (h : cmd.Deletion) (hnone : ¬cmd.Finds host) :
    cmd.apply host = host := by
  cases h with
  | deleteTable f =>
    have htable : host.tables f = none := by simpa [Finds] using hnone
    have hsame : Function.update host.tables f none = host.tables := by
      rw [← htable, Function.update_eq_self]
    simp only [apply, hsame]
  | ruleDel f =>
    have hzero : host.markRules f - 1 = host.markRules f := by
      have hnot : ¬0 < host.markRules f := hnone
      omega
    have hsame : Function.update host.markRules f (host.markRules f - 1) = host.markRules := by
      rw [hzero, Function.update_eq_self]
    simp only [apply, hsame]
  | routeFlush f =>
    have hroute : host.markRoute f = false := by simpa [Finds] using hnone
    have hsame : Function.update host.markRoute f false = host.markRoute := by
      rw [← hroute, Function.update_eq_self]
    simp only [apply, hsame]

/-- It leaves what it would leave if it always succeeded. -/
theorem Cmd.Deletion.effect_eq (h : cmd.Deletion) (hhonest : cmd.Honest host o) :
    cmd.effect o host = cmd.apply host := by
  unfold Cmd.effect
  split_ifs with ho
  · rfl
  · exact (h.apply_of_not_finds fun hfound => ho (hhonest hfound)).symm

/-- Every command does what it is to do: it succeeds, or there is nothing to delete. -/
def Cmd.Effective (host : Host) (cmd : Cmd) (o : Outcome) : Prop :=
  o = .success ∨ cmd.Deletion ∧ ¬cmd.Finds host

def Host.Effective (host : Host) (trace : List (Cmd × Outcome)) : Prop :=
  Allows Cmd.effect Cmd.Effective host trace

theorem Cmd.Deletion.effective (h : cmd.Deletion) (hhonest : cmd.Honest host o) :
    cmd.Effective host o := by
  by_cases ho : o = .success
  · exact .inl ho
  · exact .inr ⟨h, fun hfound => ho (hhonest hfound)⟩

theorem Cmd.Effective.honest (h : cmd.Effective host o) : cmd.Honest host o := by
  rcases h with rfl | ⟨_, hnone⟩
  · exact fun _ => rfl
  · exact fun hfound => absurd hfound hnone

theorem Host.Effective.honest (h : host.Effective trace) : host.Honest trace :=
  Allows.mono h fun _ _ _ => Cmd.Effective.honest

theorem Host.effective_of_success (h : ∀ e ∈ trace, e.2 = .success) : host.Effective trace := by
  induction trace generalizing host with
  | nil => trivial
  | cons e trace ih =>
    obtain ⟨he, hrest⟩ := List.forall_mem_cons.mp h
    exact ⟨.inl he, ih hrest⟩

theorem Host.Effective.after_eq (h : host.Effective trace) :
    host.after trace = host.applyAll (trace.map Prod.fst) := by
  induction trace generalizing host with
  | nil => rfl
  | cons e trace ih =>
    have heffect : e.1.effect e.2 host = e.1.apply host := by
      rcases h.1 with ho | ⟨hdel, hnone⟩
      · exact if_pos ho
      · exact hdel.effect_eq fun hfound => absurd hfound hnone
    have hrest : (e.1.effect e.2 host).Effective trace := h.2
    have hafter := ih hrest
    rw [heffect] at hafter
    rw [Host.after, Script.after, List.foldl_cons, heffect]
    exact hafter

/-- Deletions that are honest have their effects. -/
theorem Host.Honest.effective (h : host.Honest trace) (hdel : ∀ e ∈ trace, e.1.Deletion) :
    host.Effective trace := by
  induction trace generalizing host with
  | nil => trivial
  | cons e trace ih =>
    obtain ⟨he, hrest⟩ := List.forall_mem_cons.mp hdel
    exact ⟨he.effective h.1, ih h.2 hrest⟩

end Deletions

/-- The hosts that setups and teardowns make of a clean one, wherever they stop, while
deletions work. -/
inductive Host.HonestlyReachable : Host → Prop
  | clean {host : Host} (h : host.Clean) : HonestlyReachable host
  | setup {host : Host} {fw : FirewallConfig} {addrs : InterfaceAddrs}
      {trace rest : List (Cmd × Outcome)} {result : Except String Unit}
      (h : HonestlyReachable host) (hruns : (setup fw addrs).Runs (trace ++ rest) result)
      (hhonest : host.Honest trace) : HonestlyReachable (host.after trace)
  | teardown {host : Host} {trace rest : List (Cmd × Outcome)} {result : Except String Unit}
      (h : HonestlyReachable host) (hruns : teardown.Runs (trace ++ rest) result)
      (hhonest : host.Honest trace) : HonestlyReachable (host.after trace)

def Cmd.NoRuleAdd (cmd : Cmd) : Prop := ∀ f, cmd ≠ .ruleAdd f

/-- The lookup rule for the TPROXY mark is not there twice. -/
def Host.OneMarkRule (host : Host) : Prop := ∀ f, host.markRules f ≤ 1

section Commands
variable {host : Host} {cmd : Cmd} {o : Outcome} {f : NftFamily}

/-- Nothing but the addition of a rule makes more of them. -/
theorem Host.OneMarkRule.effect (h : host.OneMarkRule) (hcmd : cmd.NoRuleAdd) :
    (cmd.effect o host).OneMarkRule := by
  refine Cmd.effect_induction h ?_
  intro g
  cases cmd with
  | ruleAdd f => exact absurd rfl (hcmd f)
  | ruleDel f =>
    by_cases hg : g = f
    · subst hg
      simpa [Cmd.apply] using (h g).trans (Nat.le_succ 1)
    · simpa [Cmd.apply, hg] using h g
  | _ => exact h g

theorem Host.OneMarkRule.ruleDel (h : host.OneMarkRule) (hhonest : Cmd.Honest host (.ruleDel f) o) :
    (Cmd.effect (.ruleDel f) o host).markRules f = 0 := by
  have hle := h f
  by_cases hfound : 0 < host.markRules f
  · rw [hhonest hfound]
    simp only [Cmd.effect, Cmd.apply, if_pos, Function.update_self]
    omega
  · refine Cmd.effect_induction (P := fun x => x.markRules f = 0) (by omega) ?_
    simp only [Cmd.apply, Function.update_self]
    omega

theorem Host.OneMarkRule.ruleAdd (h : host.OneMarkRule) (hzero : host.markRules f = 0) :
    (Cmd.effect (.ruleAdd f) o host).OneMarkRule := by
  refine Cmd.effect_induction h ?_
  intro g
  by_cases hg : g = f
  · subst hg
    simp [Cmd.apply, hzero]
  · simpa [Cmd.apply, hg] using h g

end Commands

/-- A specification of a script of the firewall. -/
abbrev Spec {α : Type} (P : Host → Prop) (s : FirewallScript α) (C : Host → Prop)
    (Q : Except String α → Host → Prop) : Prop :=
  CrashTriple Cmd.effect Cmd.Honest P s C Q

section Scripts
variable {α : Type} {s : FirewallScript α} {fw : FirewallConfig} {addrs : InterfaceAddrs}
  {f : NftFamily} {cmd : Cmd}

theorem spec_of_issues (h : s.Issues Cmd.NoRuleAdd) :
    Spec Host.OneMarkRule s Host.OneMarkRule fun _ => Host.OneMarkRule :=
  crashTriple_of_issues h fun _ _ _ hx hcmd _ => hx.effect hcmd

theorem spec_ignore (h : cmd.NoRuleAdd) :
    Spec Host.OneMarkRule (.ignore cmd) Host.OneMarkRule fun _ => Host.OneMarkRule :=
  spec_of_issues (issues_ignore h)

theorem spec_runCmds_one (h : cmd.NoRuleAdd) :
    Spec Host.OneMarkRule (runCmds [cmd]) Host.OneMarkRule fun _ => Host.OneMarkRule :=
  spec_of_issues (issues_checkAll (List.forall_mem_singleton.mpr h))

theorem spec_ruleDel : Spec Host.OneMarkRule (.ignore (.ruleDel f)) Host.OneMarkRule
    fun _ x => x.OneMarkRule ∧ x.markRules f = 0 := by
  apply crashTriple_ignore fun _ h => h
  intro x o hx hhonest
  have hdel : (Cmd.effect (.ruleDel f) o x).OneMarkRule := hx.effect (by simp [Cmd.NoRuleAdd])
  exact ⟨hdel, hdel, hx.ruleDel hhonest⟩

theorem spec_ignore_ruleAdd : Spec (fun x => x.OneMarkRule ∧ x.markRules f = 0)
    (.ignore (.ruleAdd f)) Host.OneMarkRule fun _ => Host.OneMarkRule := by
  apply crashTriple_ignore fun _ h => h.1
  intro x o hx _
  exact ⟨hx.1.ruleAdd hx.2, hx.1.ruleAdd hx.2⟩

theorem spec_runCmds_ruleAdd : Spec (fun x => x.OneMarkRule ∧ x.markRules f = 0)
    (runCmds [.ruleAdd f]) Host.OneMarkRule fun _ => Host.OneMarkRule := by
  apply crashTriple_bind (R := fun _ => Host.OneMarkRule)
  · apply crashTriple_check fun _ h => h.1
    · exact fun x o hx _ _ => ⟨hx.1.ruleAdd hx.2, hx.1.ruleAdd hx.2⟩
    · exact fun x o e hx _ _ => ⟨hx.1.ruleAdd hx.2, hx.1.ruleAdd hx.2⟩
  · exact fun _ => crashTriple_done (fun _ h => h) fun _ h => h
  · exact fun _ _ h => h

/-- Each addition comes right behind a deletion. -/
theorem spec_setupTproxyRouting : Spec Host.OneMarkRule setupTproxyRouting Host.OneMarkRule
    fun _ => Host.OneMarkRule := by
  have hkeep : ∀ (e : String) (x : Host), x.OneMarkRule → x.OneMarkRule := fun _ _ h => h
  apply crashTriple_bind spec_ruleDel ?_ fun _ _ h => h.1
  intro _
  apply crashTriple_bind spec_runCmds_ruleAdd ?_ hkeep
  intro _
  apply crashTriple_bind (spec_ignore (by simp [Cmd.NoRuleAdd])) ?_ hkeep
  intro _
  apply crashTriple_bind (spec_runCmds_one (by simp [Cmd.NoRuleAdd])) ?_ hkeep
  intro _
  apply crashTriple_bind spec_ruleDel ?_ fun _ _ h => h.1
  intro _
  apply crashTriple_bind spec_ignore_ruleAdd ?_ hkeep
  intro _
  apply crashTriple_bind (spec_ignore (by simp [Cmd.NoRuleAdd])) ?_ hkeep
  exact fun _ => spec_ignore (by simp [Cmd.NoRuleAdd])

theorem spec_setupFamily : Spec Host.OneMarkRule (setupFamily f fw addrs) Host.OneMarkRule
    fun _ => Host.OneMarkRule := by
  have hissues : (setupFamily f fw addrs).Issues Cmd.NoRuleAdd := by
    refine Issues.mono issues_setupFamily fun cmd hcmd => ?_
    rintro g rfl
    cases hcmd
  exact spec_of_issues hissues

theorem spec_setup : Spec Host.OneMarkRule (setup fw addrs) Host.OneMarkRule
    fun _ => Host.OneMarkRule := by
  have hkeep : ∀ (e : String) (x : Host), x.OneMarkRule → x.OneMarkRule := fun _ _ h => h
  apply crashTriple_bind (spec_ignore (by simp [Cmd.NoRuleAdd])) ?_ hkeep
  intro _
  apply crashTriple_bind (spec_ignore (by simp [Cmd.NoRuleAdd])) ?_ hkeep
  intro _
  apply crashTriple_bind (spec_runCmds_one (by simp [Cmd.NoRuleAdd])) ?_ hkeep
  intro _
  apply crashTriple_bind (spec_ignore (by simp [Cmd.NoRuleAdd])) ?_ hkeep
  intro _
  apply crashTriple_bind spec_setupFamily ?_ hkeep
  intro _
  apply crashTriple_bind (R := fun _ => Host.OneMarkRule) (crashTriple_attempt spec_setupFamily) ?_
    hkeep
  intro _
  split_ifs
  · apply crashTriple_bind (R := fun _ => Host.OneMarkRule)
      (crashTriple_attempt spec_setupTproxyRouting) ?_ hkeep
    exact fun _ => crashTriple_done (fun _ h => h) fun _ h => h
  · exact crashTriple_done (fun _ h => h) fun _ h => h

theorem spec_teardown : Spec Host.OneMarkRule teardown Host.OneMarkRule
    fun _ => Host.OneMarkRule := by
  have hkeep : ∀ (e : String) (x : Host), x.OneMarkRule → x.OneMarkRule := fun _ _ h => h
  apply crashTriple_bind (spec_ignore (by simp [Cmd.NoRuleAdd])) ?_ hkeep
  intro _
  apply crashTriple_bind (spec_ignore (by simp [Cmd.NoRuleAdd])) ?_ hkeep
  intro _
  apply crashTriple_bind (R := fun _ => Host.OneMarkRule) ?_ ?_ hkeep
  · apply crashTriple_bind (spec_ignore (by simp [Cmd.NoRuleAdd])) ?_ hkeep
    intro _
    apply crashTriple_bind (spec_ignore (by simp [Cmd.NoRuleAdd])) ?_ hkeep
    intro _
    apply crashTriple_bind (spec_ignore (by simp [Cmd.NoRuleAdd])) ?_ hkeep
    exact fun _ => spec_ignore (by simp [Cmd.NoRuleAdd])
  intro _
  apply crashTriple_bind (spec_runCmds_one (by simp [Cmd.NoRuleAdd])) ?_ hkeep
  exact fun _ => spec_ignore (by simp [Cmd.NoRuleAdd])

end Scripts

/-- Wherever the runs stopped, no rule is there twice. -/
theorem Host.HonestlyReachable.oneMarkRule {host : Host} (h : host.HonestlyReachable) :
    host.OneMarkRule := by
  induction h with
  | clean h =>
    intro f
    rw [h.markRules f]
    exact Nat.zero_le 1
  | setup _ hruns hhonest ih => exact (spec_setup _ _ _ _ ih hruns hhonest).1
  | teardown _ hruns hhonest ih => exact (spec_teardown _ _ _ _ ih hruns hhonest).1

section Teardown
variable {host : Host} {cmd : Cmd} {o : Outcome} {f : NftFamily}

/-- The deletions come first in a teardown, whatever becomes of the rest. -/
theorem exists_of_runs_teardown {trace : List (Cmd × Outcome)} {result : Except String Unit}
    (h : teardown.Runs trace result) : ∃ o1 o2 o3 o4 o5 o6 rest,
      trace = [(.deleteTable .ip, o1), (.deleteTable .ip6, o2), (.ruleDel .ip, o3),
        (.routeFlush .ip, o4), (.ruleDel .ip6, o5), (.routeFlush .ip6, o6)] ++ rest ∧
      ∀ e ∈ rest, e.1.program = "sysctl" := by
  have hrouting : teardown = (Script.ignore (.deleteTable .ip)).bind fun _ =>
      (Script.ignore (.deleteTable .ip6)).bind fun _ =>
      (Script.ignore (.ruleDel .ip)).bind fun _ => (Script.ignore (.routeFlush .ip)).bind fun _ =>
      (Script.ignore (.ruleDel .ip6)).bind fun _ => (Script.ignore (.routeFlush .ip6)).bind fun _ =>
      (runCmds [.setForwarding .ip false]).bind fun _ =>
        Script.ignore (.setForwarding .ip6 false) := rfl
  rw [hrouting] at h
  obtain ⟨o1, _, h1, rfl⟩ := runs_ignore_bind.mp h
  obtain ⟨o2, _, h2, rfl⟩ := runs_ignore_bind.mp h1
  obtain ⟨o3, _, h3, rfl⟩ := runs_ignore_bind.mp h2
  obtain ⟨o4, _, h4, rfl⟩ := runs_ignore_bind.mp h3
  obtain ⟨o5, _, h5, rfl⟩ := runs_ignore_bind.mp h4
  obtain ⟨o6, rest, h6, rfl⟩ := runs_ignore_bind.mp h5
  refine ⟨o1, o2, o3, o4, o5, o6, rest, rfl, ?_⟩
  have hfirst : (runCmds [.setForwarding .ip false]).Issues (fun cmd => cmd.program = "sysctl") :=
    issues_checkAll (List.forall_mem_singleton.mpr rfl)
  have hsecond : (.ignore (.setForwarding .ip6 false) : FirewallScript Unit).Issues
      (fun cmd => cmd.program = "sysctl") := issues_ignore rfl
  exact issues_bind hfirst (fun _ => hsecond) _ _ h6

theorem clean_of_teardown {trace : List (Cmd × Outcome)} {result : Except String Unit}
    (hone : host.OneMarkRule) (hruns : teardown.Runs trace result) (hhonest : host.Honest trace) :
    (host.after trace).Clean := by
  obtain ⟨o1, o2, o3, o4, o5, o6, rest, rfl, hrest⟩ := exists_of_runs_teardown hruns
  let deletions : List (Cmd × Outcome) := [(.deleteTable .ip, o1), (.deleteTable .ip6, o2),
    (.ruleDel .ip, o3), (.routeFlush .ip, o4), (.ruleDel .ip6, o5), (.routeFlush .ip6, o6)]
  have hdeletions : host.Effective deletions := by
    have hfirst : host.Honest deletions := (allows_append.mp hhonest).1
    apply hfirst.effective
    simp [deletions, Cmd.Deletion.deleteTable, Cmd.Deletion.ruleDel, Cmd.Deletion.routeFlush]
  have htables : ((host.after deletions).after rest).tables = (host.after deletions).tables :=
    Host.tables_after fun e he => by simp [hrest e he]
  obtain ⟨hrules, hroute⟩ : ((host.after deletions).after rest).markRules =
      (host.after deletions).markRules ∧
      ((host.after deletions).after rest).markRoute = (host.after deletions).markRoute :=
    Host.routing_after fun e he => by simp [hrest e he]
  rw [Host.after_append]
  have hip := hone .ip
  have hip6 := hone .ip6
  constructor
  · intro f
    rw [htables, hdeletions.after_eq]
    cases f <;> simp [deletions, Host.applyAll, Cmd.apply, Function.update]
  · intro f
    rw [hrules, hdeletions.after_eq]
    cases f <;> simp [deletions, Host.applyAll, Cmd.apply, Function.update] <;> omega
  · intro f
    rw [hroute, hdeletions.after_eq]
    cases f <;> simp [deletions, Host.applyAll, Cmd.apply, Function.update]

end Teardown

/-- Wherever setups and teardowns stopped, no lookup rule is there twice, and a teardown
leaves no table, no rule and no route. -/
theorem teardown_cleans {host : Host} (h : host.HonestlyReachable) :
    (∀ f, host.markRules f ≤ 1) ∧
      ∀ trace result, teardown.Runs trace result → host.Honest trace → (host.after trace).Clean :=
  ⟨h.oneMarkRule, fun _ _ hruns hhonest => clean_of_teardown h.oneMarkRule hruns hhonest⟩

/-- Behind a setup that is killed on its way. -/
theorem teardown_cleans_sample :
    ((sampleHost.after ((sampleTrace sampleSocks5).take 20)).after
      (teardown.run fun _ => .success).1).Clean := by
  have hruns : (setup (.fromConfig sampleEnv sampleSocks5) sampleAddrs).Runs
      ((sampleTrace sampleSocks5).take 20 ++ (sampleTrace sampleSocks5).drop 20) (.ok ()) := by
    rw [List.take_append_drop]
    exact runs_sampleTrace sampleSocks5 rfl
  have hreached : (sampleHost.after ((sampleTrace sampleSocks5).take 20)).HonestlyReachable :=
    .setup (.clean clean_sampleHost) hruns
      (Host.effective_of_success fun _ he => mem_run (List.mem_of_mem_take he)).honest
  exact (teardown_cleans hreached).2 _ _ (Script.runs_run _ _)
    (Host.effective_of_success fun _ he => mem_run he).honest

end TransProxy.Firewall
