import TransProxy.Firewall.Frames

/-!
# What the scripts add

What a script for a family leaves in its chains when it succeeds and when it does not, and
what a setup that succeeds has done about QUIC.
-/
namespace TransProxy.Firewall
open Library Net Script

namespace Host
variable {host : Host} {f g : NftFamily} {c d : Chain} {cmd : Cmd} {o : Outcome}
  {trace : List (Cmd × Outcome)}

def applyAll (host : Host) (cmds : List Cmd) : Host := cmds.foldl Cmd.apply host

theorem after_of_success (h : ∀ e ∈ trace, runCmdError e.1 e.2 = none) :
    host.after trace = host.applyAll (trace.map Prod.fst) := by
  induction trace generalizing host with
  | nil => rfl
  | cons e trace ih =>
    obtain ⟨he, hrest⟩ := List.forall_mem_cons.mp h
    have hsuccess := runCmdError_eq_none_iff.mp he
    rw [List.map_cons, Host.after, ← Prod.eta e, Script.after_cons, Cmd.effect, if_pos hsuccess]
    exact ih hrest

theorem isSome_tables_apply (h : OfSection f cmd) (htable : (host.tables f).isSome) :
    ((cmd.apply host).tables f).isSome := by
  cases h <;> simp [Cmd.apply, htable]

theorem isSome_tables_applyAll {cmds : List Cmd} (h : ∀ cmd ∈ cmds, OfSection f cmd)
    (htable : (host.tables f).isSome) : ((host.applyAll cmds).tables f).isSome := by
  induction cmds generalizing host with
  | nil => exact htable
  | cons cmd cmds ih =>
    obtain ⟨hcmd, hrest⟩ := List.forall_mem_cons.mp h
    exact ih hrest (isSome_tables_apply hcmd htable)

theorem chain_addRules (rules : List Rule) : (host.applyAll (rules.map (.addRule f c))).chain g d =
    if g = f ∧ d = c then (host.chain f c).map (· ++ rules) else host.chain g d := by
  induction rules generalizing host with
  | nil =>
    split_ifs with h
    · obtain ⟨rfl, rfl⟩ := h
      simp [applyAll]
    · rfl
  | cons rule rules ih =>
    have hcons : host.applyAll ((rule :: rules).map (.addRule f c)) =
        (Cmd.apply host (.addRule f c rule)).applyAll (rules.map (.addRule f c)) := rfl
    rw [hcons, ih, chain_addRule, chain_addRule]
    by_cases h : g = f ∧ d = c
    · simp [h, Function.comp_def]
    · simp [h]

/-- A chain has its rules behind those that it had before. -/
theorem rules_chainCmds (rules : List Rule) (htable : (host.tables f).isSome) :
    (host.applyAll (chainCmds f c rules)).rules g d =
      host.rules g d ++ if g = f ∧ d = c then rules else [] := by
  have hadd : host.applyAll (chainCmds f c rules) =
      (Cmd.apply host (.addChain f c)).applyAll (rules.map (.addRule f c)) := rfl
  obtain ⟨t, ht⟩ := Option.isSome_iff_exists.mp htable
  rw [hadd, Host.rules, chain_addRules, chain_addChain, chain_addChain]
  by_cases h : g = f ∧ d = c
  · obtain ⟨rfl, rfl⟩ := h
    simp [Host.rules, chain, ht]
  · simp [Host.rules, h]

structure Adds (host : Host) (f : NftFamily) (added : Chain → List Rule)
    (trace : List (Cmd × Outcome)) : Prop where
  table : (host.tables f).isSome → ((host.after trace).tables f).isSome
  rules : ∀ d, (host.after trace).rules f d = host.rules f d ++ added d
  issued : ∀ d rule, (.addRule f d rule, .success) ∈ trace ↔ rule ∈ added d

def only (c : Chain) (rules : List Rule) (d : Chain) : List Rule := if d = c then rules else []

@[simp] theorem only_nil : only c [] = fun _ => [] := by
  funext d
  simp [only]

theorem adds_nil : Adds host f (fun _ => []) [] where
  table := id
  rules _ := (List.append_nil _).symm
  issued := by simp

theorem Adds.append {added added' : Chain → List Rule} {more : List (Cmd × Outcome)}
    (h : Adds host f added trace) (h' : Adds (host.after trace) f added' more) :
    Adds host f (fun d => added d ++ added' d) (trace ++ more) where
  table htable := by
    rw [after_append]
    exact h'.table (h.table htable)
  rules d := by
    rw [after_append, h'.rules, h.rules, List.append_assoc]
  issued d rule := by
    rw [List.mem_append, List.mem_append, h.issued, h'.issued]

/-- A last command that fails adds nothing. -/
theorem Adds.append_failed {added : Chain → List Rule} (h : Adds host f added trace)
    (hfail : o ≠ .success) : Adds host f added (trace ++ [(cmd, o)]) := by
  have hafter : host.after (trace ++ [(cmd, o)]) = host.after trace := by
    rw [after_append]
    exact if_neg hfail
  constructor
  · rw [hafter]
    exact h.table
  · rw [hafter]
    exact h.rules
  · intro d rule
    rw [List.mem_append, h.issued]
    simp [hfail.symm]

/-- The commands of the trace add the first of the rules, to each chain. -/
def AddsUpTo (host : Host) (f : NftFamily) (full : Chain → List Rule)
    (trace : List (Cmd × Outcome)) : Prop :=
  ∃ added, Adds host f added trace ∧ ∀ d, added d <+: full d

theorem addsUpTo_nil {full : Chain → List Rule} : AddsUpTo host f full [] :=
  ⟨_, adds_nil, fun _ => List.nil_prefix⟩

theorem Adds.upTo {full : Chain → List Rule} (h : Adds host f full trace) :
    AddsUpTo host f full trace :=
  ⟨full, h, fun _ => List.prefix_rfl⟩

theorem AddsUpTo.mono {full more : Chain → List Rule} (h : AddsUpTo host f full trace)
    (hfull : ∀ d, full d <+: more d) : AddsUpTo host f more trace := by
  obtain ⟨added, hadds, hinit⟩ := h
  exact ⟨added, hadds, fun d => (hinit d).trans (hfull d)⟩

theorem AddsUpTo.table {full : Chain → List Rule} (h : AddsUpTo host f full trace) :
    (host.tables f).isSome → ((host.after trace).tables f).isSome := by
  obtain ⟨added, hadds, _⟩ := h
  exact hadds.table

/-- Of the rules for one chain, it is a number of them that is added. -/
theorem AddsUpTo.exists_take {rules : List Rule} (h : AddsUpTo host f (only c rules) trace) :
    ∃ n, Adds host f (only c (rules.take n)) trace := by
  obtain ⟨added, hadds, hinit⟩ := h
  refine ⟨(added c).length, ?_⟩
  have hc : added c = rules.take (added c).length :=
    List.prefix_iff_eq_take.mp (by simpa [only] using hinit c)
  have hadded : added = only c (rules.take (added c).length) := by
    funext d
    by_cases hd : d = c
    · rw [hd, ← hc]
      simp [only]
    · have hnil : added d <+: [] := by simpa [only, hd] using hinit d
      rw [List.prefix_nil.mp hnil]
      simp [only, hd]
  rwa [← hadded]

theorem adds_chainCmds {rules : List Rule} (htable : (host.tables f).isSome)
    (hsuccess : ∀ e ∈ trace, runCmdError e.1 e.2 = none)
    (htrace : trace.map Prod.fst = chainCmds f c rules)
    (hrules : ∀ rule ∈ rules, RuleOfSetup c rule) : Adds host f (only c rules) trace where
  table _ := by
    rw [after_of_success hsuccess, htrace]
    exact isSome_tables_applyAll (ofSection_chainCmds hrules) htable
  rules d := by
    rw [after_of_success hsuccess, htrace, rules_chainCmds rules htable]
    simp [only]
  issued d rule := by
    have hmem : (.addRule f d rule, .success) ∈ trace ↔ .addRule f d rule ∈ trace.map Prod.fst := by
      constructor
      · exact List.mem_map_of_mem
      · intro h
        obtain ⟨⟨cmd, o⟩, he, rfl⟩ := List.mem_map.mp h
        obtain rfl : o = .success := runCmdError_eq_none_iff.mp (hsuccess _ he)
        exact he
    rw [hmem, htrace, only]
    split_ifs with hd
    · simp [chainCmds, hd]
    · have hne : c ≠ d := fun h => hd h.symm
      simp [chainCmds, hne]

/-- Commands for a chain that stop somewhere have added the first of its rules. -/
theorem addsUpTo_chainCmds {rules : List Rule} (htable : (host.tables f).isSome)
    (hsuccess : ∀ e ∈ trace, runCmdError e.1 e.2 = none)
    (htrace : trace.map Prod.fst <+: chainCmds f c rules)
    (hrules : ∀ rule ∈ rules, RuleOfSetup c rule) : AddsUpTo host f (only c rules) trace := by
  rcases trace with _ | ⟨e, trace⟩
  · exact addsUpTo_nil
  · obtain ⟨he, hinit⟩ := List.cons_prefix_cons.mp htrace
    rw [List.prefix_iff_eq_take, ← List.map_take] at hinit
    refine ⟨only c (rules.take trace.length), adds_chainCmds htable hsuccess ?_ ?_, fun d => ?_⟩
    · rw [List.map_cons, he, hinit, List.length_map]
      rfl
    · exact fun rule hrule => hrules rule (List.mem_of_mem_take hrule)
    · unfold only
      split_ifs
      · exact List.take_prefix _ rules
      · exact List.prefix_rfl

end Host

/-- On a host that has the table, the script adds the rules if it succeeds, and the first of
them if it does not. -/
structure Builds {α : Type} (f : NftFamily) (full : Chain → List Rule) (s : FirewallScript α) :
    Prop where
  ok : ∀ {host : Host} {trace : List (Cmd × Outcome)} {a : α}, (host.tables f).isSome →
    s.Runs trace (.ok a) → host.Adds f full trace
  error : ∀ {host : Host} {trace : List (Cmd × Outcome)} {e : String}, (host.tables f).isSome →
    s.Runs trace (.error e) → host.AddsUpTo f full trace

section Scripts
open Host
variable {α β : Type} {f : NftFamily} {full more : Chain → List Rule} {s : FirewallScript α}
  {k : α → FirewallScript β} {c : Chain} {rules : List Rule} {fw : FirewallConfig}
  {addrs : InterfaceAddrs} {host : Host} {trace : List (Cmd × Outcome)}

theorem Builds.upTo {result : Except String α} (h : Builds f full s)
    (htable : (host.tables f).isSome) (hruns : s.Runs trace result) :
    host.AddsUpTo f full trace := by
  cases result with
  | ok a => exact (h.ok htable hruns).upTo
  | error e => exact h.error htable hruns

theorem builds_done (a : α) : Builds f (fun _ => []) (.done a) where
  ok _ h := by
    rw [(runs_done.mp h).1]
    exact adds_nil
  error _ h := by cases (runs_done.mp h).2

theorem builds_bind (hs : Builds f full s) (hk : ∀ a, Builds f more (k a)) :
    Builds f (fun d => full d ++ more d) (s.bind k) where
  ok htable h := by
    obtain ⟨first, a, second, h1, h2, rfl⟩ := runs_bind_ok.mp h
    have hfirst := hs.ok htable h1
    exact hfirst.append ((hk a).ok (hfirst.table htable) h2)
  error htable h := by
    obtain ⟨first, a, second, h1, h2, rfl⟩ | ⟨e, h1, _⟩ := runs_bind.mp h
    · have hfirst := hs.ok htable h1
      obtain ⟨added, hadds, hinit⟩ := (hk a).upTo (hfirst.table htable) h2
      exact ⟨_, hfirst.append hadds, fun d => List.prefix_append_right_inj _ |>.mpr (hinit d)⟩
    · exact (hs.error htable h1).mono fun d => List.prefix_append _ _

theorem builds_chainCmds (hrules : ∀ rule ∈ rules, RuleOfSetup c rule) :
    Builds f (only c rules) (runCmds (chainCmds f c rules)) where
  ok htable h := by
    obtain ⟨htrace, hsuccess⟩ := runs_checkAll_ok.mp h
    exact adds_chainCmds htable hsuccess htrace hrules
  error htable h := by
    obtain ⟨first, cmd, o, rfl, hsuccess, herror, hinit⟩ := runs_checkAll_error h
    obtain ⟨added, hadds, hfirst⟩ := addsUpTo_chainCmds htable hsuccess
      ((List.prefix_append _ _).trans hinit) hrules
    exact ⟨added, hadds.append_failed (runCmdError_ne_none herror), hfirst⟩

/-- The rules against QUIC of the host's own. -/
def quicOutputRules (fw : FirewallConfig) : List Rule :=
  match fw.fwmark with
  | none => []
  | some _ => fw.quicBlockPorts.map (quicDropRule (.oifname fw.interface))

def quicForwardRules (fw : FirewallConfig) : List Rule :=
  fw.quicBlockPorts.map (quicDropRule (.iifname fw.interface))

def tproxyRules (fw : FirewallConfig) : List Rule := fw.quicBlockPorts.map (tproxyRule fw)

theorem quicOutputRules_of_nil (h : fw.quicBlockPorts = [] ∨ fw.fwmark = none) :
    quicOutputRules fw = [] := by
  unfold quicOutputRules
  rcases h with hports | hmark
  · rw [hports]
    cases fw.fwmark <;> rfl
  · rw [hmark]

theorem builds_setupQuicBlockOutput :
    Builds f (only .quicOutput (quicOutputRules fw)) (setupQuicBlockOutput fw f) := by
  unfold setupQuicBlockOutput
  split_ifs with hskip
  · rw [quicOutputRules_of_nil hskip, only_nil]
    exact builds_done ()
  · obtain ⟨fwmark, hmark⟩ := Option.ne_none_iff_exists'.mp (not_or.mp hskip).2
    simp only [quicOutputRules, hmark]
    apply builds_chainCmds
    simp only [List.forall_mem_map]
    exact fun port _ => .quicOutput fw.interface port

theorem builds_setupQuicBlock : Builds f (fun d => only .quicForward (quicForwardRules fw) d ++
    only .quicOutput (quicOutputRules fw) d) (setupQuicBlock fw f) := by
  unfold setupQuicBlock
  split_ifs with hports
  · rw [quicOutputRules_of_nil (.inl hports), quicForwardRules, hports]
    simpa using builds_done ()
  · refine builds_bind (builds_chainCmds ?_) fun _ => builds_setupQuicBlockOutput
    simp only [quicForwardRules, List.forall_mem_map]
    exact fun port _ => .quicForward fw.interface port

theorem builds_setupUdpTproxy :
    Builds f (only .tproxyPrerouting (tproxyRules fw)) (setupUdpTproxy fw f) := by
  unfold setupUdpTproxy
  split_ifs with hports
  · rw [tproxyRules, hports]
    simpa using builds_done ()
  · apply builds_chainCmds
    simp only [tproxyRules, List.forall_mem_map]
    exact fun port _ => .tproxyPrerouting fw port

def natRules (f : NftFamily) (fw : FirewallConfig) (addrs : InterfaceAddrs) (d : Chain) :
    List Rule :=
  only .prerouting (preroutingRules f fw addrs) d ++
    match fw.fwmark with
    | none => []
    | some fwmark => only .output (outputRules f fw addrs fwmark) d

@[simp] theorem natRules_prerouting :
    natRules f fw addrs .prerouting = preroutingRules f fw addrs := by
  unfold natRules
  cases fw.fwmark <;> simp [only]

@[simp] theorem natRules_tproxyPrerouting : natRules f fw addrs .tproxyPrerouting = [] := by
  unfold natRules
  cases fw.fwmark <;> rfl

@[simp] theorem natRules_quicForward : natRules f fw addrs .quicForward = [] := by
  unfold natRules
  cases fw.fwmark <;> rfl

@[simp] theorem natRules_quicOutput : natRules f fw addrs .quicOutput = [] := by
  unfold natRules
  cases fw.fwmark <;> rfl

/-- The commands for redirects behind the one for the table. -/
def natChainCmds (f : NftFamily) (fw : FirewallConfig) (addrs : InterfaceAddrs) : List Cmd :=
  chainCmds f .prerouting (preroutingRules f fw addrs) ++
    match fw.fwmark with
    | none => []
    | some fwmark => chainCmds f .output (outputRules f fw addrs fwmark)

theorem runCmds_natCmds : runCmds (natCmds f fw addrs) =
    (check runCmdError (.addTable f)).bind fun _ => runCmds (natChainCmds f fw addrs) := rfl

theorem builds_natChainCmds :
    Builds f (natRules f fw addrs) (runCmds (natChainCmds f fw addrs)) := by
  unfold natRules natChainCmds
  rw [runCmds, checkAll_append]
  apply builds_bind (builds_chainCmds fun rule hrule => .prerouting hrule)
  intro _
  cases fw.fwmark with
  | none => exact builds_done ()
  | some fwmark => exact builds_chainCmds fun rule hrule => .output hrule

/-- The table that the rest of a section is for. -/
theorem adds_addTable {o : Outcome} (hsuccess : runCmdError (.addTable f) o = none) :
    ((host.after [(.addTable f, o)]).tables f).isSome ∧
      Adds host f (fun _ => []) [(.addTable f, o)] := by
  obtain rfl := runCmdError_eq_none_iff.mp hsuccess
  have hafter : host.after [(.addTable f, .success)] = Cmd.apply host (.addTable f) := rfl
  have hsome : ((host.after [(.addTable f, .success)]).tables f).isSome := by
    simp [hafter, Cmd.apply]
  refine ⟨hsome, fun _ => hsome, fun d => ?_, by simp⟩
  rw [hafter, Host.rules, chain_addTable, List.append_nil, Host.rules]

end Scripts

section Section
open Host
variable {host : Host} {f : NftFamily} {fw : FirewallConfig} {addrs : InterfaceAddrs} {c : Chain}
  {trace : List (Cmd × Outcome)}

/-- The chain that a command acts on. -/
def Cmd.target : Cmd → Option (NftFamily × Chain)
  | .addChain f c => some (f, c)
  | .addRule f c _ => some (f, c)
  | .deleteTable _ => none
  | .addTable _ => none
  | .setForwarding _ _ => none
  | .ruleDel _ => none
  | .ruleAdd _ => none
  | .routeFlush _ => none
  | .routeAdd _ => none

def FailedOn (f : NftFamily) (c : Chain) (trace : List (Cmd × Outcome)) : Prop :=
  ∃ e ∈ trace, e.1.target = some (f, c) ∧ e.2 ≠ .success

theorem target_of_mem_chainCmds {rules : List Rule} {cmd : Cmd} (h : cmd ∈ chainCmds f c rules) :
    cmd.target = some (f, c) := by
  rcases List.mem_cons.mp h with rfl | h
  · rfl
  · obtain ⟨rule, _, rfl⟩ := List.mem_map.mp h
    rfl

theorem not_failedOn_of_success (h : ∀ e ∈ trace, e.2 = .success) : ¬FailedOn f c trace := by
  rintro ⟨e, he, _, hfail⟩
  exact hfail (h e he)

theorem failedOn_append {more : List (Cmd × Outcome)} :
    FailedOn f c (trace ++ more) ↔ FailedOn f c trace ∨ FailedOn f c more := by
  simp [FailedOn, or_and_right, exists_or]

theorem success_of_setupQuicBlockOutput (hruns : (setupQuicBlockOutput fw f).Runs trace (.ok ())) :
    ∀ e ∈ trace, e.2 = .success := by
  unfold setupQuicBlockOutput at hruns
  split_ifs at hruns
  · obtain ⟨rfl, _⟩ := runs_done.mp hruns
    simp
  · exact fun e he => runCmdError_eq_none_iff.mp ((runs_checkAll_ok.mp hruns).2 e he)

theorem success_of_setupUdpTproxy (hruns : (setupUdpTproxy fw f).Runs trace (.ok ())) :
    ∀ e ∈ trace, e.2 = .success := by
  unfold setupUdpTproxy at hruns
  split_ifs at hruns
  · obtain ⟨rfl, _⟩ := runs_done.mp hruns
    simp
  · exact fun e he => runCmdError_eq_none_iff.mp ((runs_checkAll_ok.mp hruns).2 e he)

theorem failedOn_of_setupUdpTproxy {e : String}
    (hruns : (setupUdpTproxy fw f).Runs trace (.error e)) : FailedOn f .tproxyPrerouting trace := by
  unfold setupUdpTproxy at hruns
  split_ifs at hruns
  · cases (runs_done.mp hruns).2
  obtain ⟨first, cmd, o, rfl, _, herror, hinit⟩ := runs_checkAll_error hruns
  have hcmd : cmd ∈ chainCmds f .tproxyPrerouting (fw.quicBlockPorts.map (tproxyRule fw)) :=
    hinit.subset (by simp)
  exact ⟨(cmd, o), by simp, target_of_mem_chainCmds hcmd, runCmdError_ne_none herror⟩

/-- What became of QUIC: it is let through, intercepted, or dropped behind the rules that
an interception that failed has left. -/
inductive QuicStrategy where
  | pass
  | tproxy
  | drop (left : ℕ)

def udpRules (fw : FirewallConfig) : QuicStrategy → Chain → List Rule
  | .pass, _ => []
  | .tproxy, d =>
    only .tproxyPrerouting (tproxyRules fw) d ++ only .quicOutput (quicOutputRules fw) d
  | .drop left, d =>
    only .tproxyPrerouting ((tproxyRules fw).take left) d ++
      (only .quicForward (quicForwardRules fw) d ++ only .quicOutput (quicOutputRules fw) d)

@[simp] theorem udpRules_output (strategy : QuicStrategy) : udpRules fw strategy .output = [] := by
  cases strategy <;> rfl

/-- When it is what. -/
inductive Chosen (fw : FirewallConfig) (f : NftFamily) (trace : List (Cmd × Outcome)) :
    QuicStrategy → Prop
  | pass (hproxy : fw.proxyUdp = false) (hblock : fw.blockQuic = false) : Chosen fw f trace .pass
  | tproxy (hproxy : fw.proxyUdp = true) (hsuccess : ¬FailedOn f .tproxyPrerouting trace) :
      Chosen fw f trace .tproxy
  | fallback (hproxy : fw.proxyUdp = true) (hfailed : FailedOn f .tproxyPrerouting trace)
      (left : ℕ) : Chosen fw f trace (.drop left)
  | drop (hproxy : fw.proxyUdp = false) (hblock : fw.blockQuic = true) :
      Chosen fw f trace (.drop 0)

theorem Chosen.congr {more : List (Cmd × Outcome)} {strategy : QuicStrategy}
    (h : Chosen fw f trace strategy)
    (hiff : FailedOn f .tproxyPrerouting trace ↔ FailedOn f .tproxyPrerouting more) :
    Chosen fw f more strategy := by
  cases h with
  | pass hproxy hblock => exact .pass hproxy hblock
  | tproxy hproxy hsuccess => exact .tproxy hproxy (hiff.not.mp hsuccess)
  | fallback hproxy hfailed left => exact .fallback hproxy (hiff.mp hfailed) left
  | drop hproxy hblock => exact .drop hproxy hblock

theorem adds_setupUdpHandling (htable : (host.tables f).isSome)
    (hruns : (setupUdpHandling fw f).Runs trace (.ok ())) :
    ∃ strategy, Chosen fw f trace strategy ∧ Adds host f (udpRules fw strategy) trace := by
  unfold setupUdpHandling at hruns
  split_ifs at hruns with hproxy hblock
  · obtain ⟨first, tproxy, second, h1, h2, rfl⟩ := runs_attempt_bind.mp hruns
    cases tproxy with
    | ok _ =>
      have hfirst := builds_setupUdpTproxy.ok htable h1
      have hsecond := builds_setupQuicBlockOutput.ok (hfirst.table htable) h2
      refine ⟨.tproxy, .tproxy hproxy ?_, hfirst.append hsecond⟩
      rw [failedOn_append]
      exact not_or.mpr ⟨not_failedOn_of_success (success_of_setupUdpTproxy h1),
        not_failedOn_of_success (success_of_setupQuicBlockOutput h2)⟩
    | error e =>
      obtain ⟨n, hfirst⟩ := (builds_setupUdpTproxy.error htable h1).exists_take
      have hsecond := builds_setupQuicBlock.ok (hfirst.table htable) h2
      have hfailed : FailedOn f .tproxyPrerouting (first ++ second) :=
        failedOn_append.mpr (.inl (failedOn_of_setupUdpTproxy h1))
      exact ⟨.drop n, .fallback hproxy hfailed n, hfirst.append hsecond⟩
  · refine ⟨.drop 0, .drop (by simpa using hproxy) hblock, ?_⟩
    have hrules : udpRules fw (.drop 0) = fun d => only .quicForward (quicForwardRules fw) d ++
        only .quicOutput (quicOutputRules fw) d := by
      funext d
      simp [udpRules]
    rw [hrules]
    exact builds_setupQuicBlock.ok htable hruns
  · obtain ⟨rfl, _⟩ := runs_done.mp hruns
    exact ⟨.pass, .pass (by simpa using hproxy) (by simpa using hblock), adds_nil⟩

/-- A section that succeeds has added all rules of its family. -/
theorem adds_setupFamily (hruns : (setupFamily f fw addrs).Runs trace (.ok ())) :
    ∃ strategy, Chosen fw f trace strategy ∧
      Adds host f (fun d => natRules f fw addrs d ++ udpRules fw strategy d) trace := by
  obtain ⟨first, _, second, h1, h2, rfl⟩ := runs_bind_ok.mp hruns
  have hsuccess : ∀ e ∈ first, e.2 = .success := fun e he =>
    runCmdError_eq_none_iff.mp ((runs_checkAll_ok.mp h1).2 e he)
  have hiff : FailedOn f .tproxyPrerouting (first ++ second) ↔
      FailedOn f .tproxyPrerouting second := by
    rw [failedOn_append]
    exact or_iff_right (not_failedOn_of_success hsuccess)
  rw [runCmds_natCmds] at h1
  obtain ⟨_, _, rest, htable, hrest, rfl⟩ := runs_bind_ok.mp h1
  obtain ⟨o, herror, rfl⟩ := runs_check_ok.mp htable
  obtain ⟨hsome, hfirst⟩ : ((host.after [(.addTable f, o)]).tables f).isSome ∧
      Adds host f (fun _ => []) [(.addTable f, o)] := adds_addTable herror
  have hnat := builds_natChainCmds.ok hsome hrest
  have hboth : Adds host f (natRules f fw addrs) ([(.addTable f, o)] ++ rest) :=
    hfirst.append hnat
  have hsome' : ((host.after ([(.addTable f, o)] ++ rest)).tables f).isSome := by
    rw [Host.after_append]
    exact hnat.table hsome
  obtain ⟨strategy, hchosen, hudp⟩ := adds_setupUdpHandling hsome' h2
  exact ⟨strategy, hchosen.congr hiff.symm, hboth.append hudp⟩

end Section

/-- The trace of a setup that succeeds: deletions and forwarding, then its parts. -/
inductive SetupOk (fw : FirewallConfig) (addrs : InterfaceAddrs) : List (Cmd × Outcome) → Prop
  | mk {o o' o6 : Outcome} {trace trace6 routing : List (Cmd × Outcome)}
      {r6 : Except String Unit} (h : (setupFamily .ip fw addrs).Runs trace (.ok ()))
      (h6 : (setupIpv6 fw addrs).Runs trace6 r6)
      (hrouting : routing = [] ∨ ∃ r, setupTproxyRouting.Runs routing r) :
      SetupOk fw addrs ([(.deleteTable .ip, o), (.deleteTable .ip6, o'),
        (.setForwarding .ip true, .success), (.setForwarding .ip6 true, o6)] ++
          (trace ++ (trace6 ++ routing)))

theorem runs_runCmds_one {cmd : Cmd} {trace : List (Cmd × Outcome)} {u : Unit}
    (h : (runCmds [cmd]).Runs trace (.ok u)) : trace = [(cmd, .success)] := by
  obtain ⟨hmap, hsuccess⟩ := runs_checkAll_ok.mp h
  obtain ⟨⟨_, o⟩, _, rfl, rfl, hnil⟩ := List.map_eq_cons_iff.mp hmap
  obtain rfl := List.map_eq_nil_iff.mp hnil
  obtain rfl : o = .success := runCmdError_eq_none_iff.mp (hsuccess _ List.mem_cons_self)
  rfl

theorem runs_runCmds_one_error {cmd : Cmd} {trace : List (Cmd × Outcome)} {e : String}
    (h : (runCmds [cmd]).Runs trace (.error e)) : ∃ o, trace = [(cmd, o)] ∧ o ≠ .success := by
  obtain ⟨_, _, _, _, h2, _⟩ | ⟨_, h1, _⟩ := runs_bind.mp h
  · cases (runs_done.mp h2).2
  · obtain ⟨o, herror, rfl⟩ := runs_check_error.mp h1
    exact ⟨o, rfl, runCmdError_ne_none herror⟩

/-- The last part of a setup, however it ends. -/
theorem routing_of_runs_last {fw : FirewallConfig} {trace : List (Cmd × Outcome)}
    {result : Except String Unit}
    (h : (if fw.proxyUdp = true then do
        let _ ← setupTproxyRouting.attempt
        pure ()
      else pure () : FirewallScript Unit).Runs trace result) :
    trace = [] ∨ ∃ r, setupTproxyRouting.Runs trace r := by
  split_ifs at h
  · obtain ⟨first, r, second, hr, hdone, rfl⟩ := runs_attempt_bind.mp h
    obtain ⟨rfl, _⟩ := runs_done.mp hdone
    exact .inr ⟨r, by simpa using hr⟩
  · exact .inl (runs_done.mp h).1

theorem setupOk_of_runs {fw : FirewallConfig} {addrs : InterfaceAddrs}
    {trace : List (Cmd × Outcome)} (h : (setup fw addrs).Runs trace (.ok ())) :
    SetupOk fw addrs trace := by
  obtain ⟨o, _, hrest, rfl⟩ := runs_ignore_bind.mp h
  obtain ⟨o', _, hrest', rfl⟩ := runs_ignore_bind.mp hrest
  obtain ⟨_, _, rest, h3, h4, rfl⟩ := runs_bind_ok.mp hrest'
  obtain rfl := runs_runCmds_one h3
  obtain ⟨o6, _, hsections, rfl⟩ := runs_ignore_bind.mp h4
  obtain ⟨trace, _, _, h5, h6, rfl⟩ := runs_bind_ok.mp hsections
  obtain ⟨trace6, r6, routing, hr6, h7, rfl⟩ := runs_attempt_bind.mp h6
  refine .mk h5 hr6 ?_
  exact routing_of_runs_last h7

end TransProxy.Firewall
