import TransProxy.Firewall.History
import TransProxy.Library.Crash

/-!
# What a section that goes on has done about QUIC

Any of the commands may fail. The script for UDP gives an error then, or falls back, and
where it gives none the ports are all covered.
-/
namespace TransProxy.Firewall
open Library Net Script

def Cmd.Has (host : Host) : Cmd → Prop
  | .addChain f _ => (host.tables f).isSome
  | .addRule f c _ => (host.chain f c).isSome
  | .deleteTable _ => True
  | .addTable _ => True
  | .setForwarding _ _ => True
  | .ruleDel _ => True
  | .ruleAdd _ => True
  | .routeFlush _ => True
  | .routeAdd _ => True

/-- nft refuses to add to what is not there. Any command may fail. -/
def Cmd.Possible (host : Host) (cmd : Cmd) (o : Outcome) : Prop := o = .success → cmd.Has host

def Host.Possible (host : Host) (trace : List (Cmd × Outcome)) : Prop :=
  Allows Cmd.effect Cmd.Possible host trace

/-- Every port has a rule that intercepts it whole or one that drops it, both for the LAN
interface, and one that drops it on the way out where local traffic is proxied. -/
def Host.QuicCovered (host : Host) (f : NftFamily) (fw : FirewallConfig) : Prop :=
  ∀ port ∈ fw.quicBlockPorts,
    (tproxyRule fw port ∈ host.rules f .tproxyPrerouting ∨
      quicDropRule (.iifname fw.interface) port ∈ host.rules f .quicForward) ∧
    (fw.fwmark.isSome → quicDropRule (.oifname fw.interface) port ∈ host.rules f .quicOutput)

section Coverage
variable {host : Host} {f : NftFamily} {fw : FirewallConfig} {c : Chain} {rules : List Rule}
  {trace : List (Cmd × Outcome)}

theorem mem_quicOutputRules {port : UInt16} (hport : port ∈ fw.quicBlockPorts)
    (hmark : fw.fwmark.isSome) : quicDropRule (.oifname fw.interface) port ∈ quicOutputRules fw := by
  obtain ⟨fwmark, hsome⟩ := Option.isSome_iff_exists.mp hmark
  simp only [quicOutputRules, hsome]
  exact List.mem_map_of_mem hport

theorem quicBlockPorts_of_not_blockQuic (h : fw.blockQuic = false) : fw.quicBlockPorts = [] := by
  simp [FirewallConfig.quicBlockPorts, h]

/-- Dropping covers the ports, whatever is left of an interception. -/
theorem quicCovered_of_drop {left : ℕ} (hadds : host.Adds f (udpRules fw (.drop left)) trace) :
    (host.after trace).QuicCovered f fw := by
  intro port hport
  rw [hadds.rules, hadds.rules, hadds.rules]
  have hrule : quicDropRule (.iifname fw.interface) port ∈ quicForwardRules fw :=
    List.mem_map_of_mem hport
  constructor
  · right
    simp [udpRules, Host.only, hrule]
  · intro hmark
    simp [udpRules, Host.only, mem_quicOutputRules hport hmark]

/-- Each way of dealing with QUIC covers the ports. -/
theorem quicCovered_of_adds {strategy : QuicStrategy} (hchosen : Chosen fw f trace strategy)
    (hadds : host.Adds f (udpRules fw strategy) trace) : (host.after trace).QuicCovered f fw := by
  cases hchosen with
  | pass hproxy hblock =>
    intro port hport
    rw [quicBlockPorts_of_not_blockQuic hblock] at hport
    cases hport
  | tproxy hproxy hsuccess =>
    intro port hport
    rw [hadds.rules, hadds.rules, hadds.rules]
    have hrule : tproxyRule fw port ∈ tproxyRules fw := List.mem_map_of_mem hport
    constructor
    · left
      simp [udpRules, Host.only, hrule]
    · intro hmark
      simp [udpRules, Host.only, mem_quicOutputRules hport hmark]
  | fallback hproxy hfailed left => exact quicCovered_of_drop hadds
  | drop hproxy hblock => exact quicCovered_of_drop hadds

def Host.hasTable (f : NftFamily) (host : Host) : Bool := (host.tables f).isSome

/-- A command for a chain neither makes a table nor removes one. -/
theorem Cmd.hasTable_apply {cmd : Cmd} (h : cmd.target = some (f, c)) :
    (cmd.apply host).hasTable f = host.hasTable f := by
  cases cmd with
  | addChain g d =>
    obtain ⟨rfl, rfl⟩ := Prod.mk.inj (Option.some.inj h)
    simp [Host.hasTable, Cmd.apply]
  | addRule g d rule =>
    obtain ⟨rfl, rfl⟩ := Prod.mk.inj (Option.some.inj h)
    simp [Host.hasTable, Cmd.apply]
  | _ => cases h

theorem Host.hasTable_after (h : ∀ e ∈ trace, e.1.target = some (f, c)) :
    (host.after trace).hasTable f = host.hasTable f :=
  after_frame fun e he _ => Cmd.effect_frame (Host.hasTable f) (Cmd.hasTable_apply (h e he))

/-- Commands for a chain that all succeed found the table. -/
theorem hasTable_of_runs (hruns : (runCmds (chainCmds f c rules)).Runs trace (.ok ()))
    (hpossible : host.Possible trace) : host.hasTable f = true := by
  obtain ⟨hmap, hsuccess⟩ := runs_checkAll_ok.mp hruns
  obtain ⟨⟨cmd, o⟩, rest, rfl, rfl, hrest⟩ := List.map_eq_cons_iff.mp hmap
  have ho : o = .success := runCmdError_eq_none_iff.mp (hsuccess _ List.mem_cons_self)
  exact hpossible.1 ho

theorem hasTable_of_setupQuicBlock (hports : fw.quicBlockPorts ≠ [])
    (hruns : (setupQuicBlock fw f).Runs trace (.ok ())) (hpossible : host.Possible trace) :
    host.hasTable f = true := by
  rw [setupQuicBlock, if_neg hports] at hruns
  obtain ⟨first, _, second, hfirst, _, rfl⟩ := runs_bind_ok.mp hruns
  exact hasTable_of_runs hfirst (allows_append.mp hpossible).1

/-- Where there is something to do, a script that succeeds found the table. -/
theorem hasTable_of_setupUdpHandling (hports : fw.quicBlockPorts ≠ [])
    (hruns : (setupUdpHandling fw f).Runs trace (.ok ())) (hpossible : host.Possible trace) :
    host.hasTable f = true := by
  have hblock : ¬fw.blockQuic = false := fun hoff => hports (quicBlockPorts_of_not_blockQuic hoff)
  unfold setupUdpHandling at hruns
  split_ifs at hruns with hproxy hon
  · obtain ⟨first, tproxy, second, h1, h2, rfl⟩ := runs_attempt_bind.mp hruns
    obtain ⟨hfirst, hsecond⟩ := allows_append.mp hpossible
    rw [setupUdpTproxy, if_neg hports] at h1
    cases tproxy with
    | ok _ => exact hasTable_of_runs h1 hfirst
    | error e =>
      -- the commands that failed or came before have made no table for the fallback
      have htarget : ∀ e ∈ first, e.1.target = some (f, .tproxyPrerouting) :=
        issues_checkAll (fun _ hcmd => target_of_mem_chainCmds hcmd) first _ h1
      rw [← Host.hasTable_after htarget]
      exact hasTable_of_setupQuicBlock hports h2 hsecond
  · exact hasTable_of_setupQuicBlock hports hruns hpossible
  · exact absurd (by simpa using hon) hblock

/-- Whichever of the commands fail, the script gives an error or leaves every port covered. -/
theorem error_or_quicCovered {result : Except String Unit}
    (hruns : (setupUdpHandling fw f).Runs trace result) (hpossible : host.Possible trace) :
    (∃ e, result = .error e) ∨ (host.after trace).QuicCovered f fw := by
  cases result with
  | error e => exact .inl ⟨e, rfl⟩
  | ok _ =>
    right
    by_cases hports : fw.quicBlockPorts = []
    · intro port hport
      rw [hports] at hport
      cases hport
    · have htable := hasTable_of_setupUdpHandling hports hruns hpossible
      obtain ⟨strategy, hchosen, hadds⟩ := adds_setupUdpHandling htable hruns
      exact quicCovered_of_adds hchosen hadds

end Coverage

/-- The command for the second port fails. -/
def halfInstalled (fw : FirewallConfig) (cmd : Cmd) : Outcome :=
  if cmd = .addRule .ip6 .tproxyPrerouting (tproxyRule fw 8443) then .failed (some 1) else .success

def sampleQuicPorts : FirewallConfig :=
  { interface := "eth0", proxyPort := 8443, fwmark := some 1, upstreamAddr := none
    ports := some [443, 8443], dnsListen := none, blockQuic := true, proxyUdp := true }

def sampleTable : Host := Cmd.apply sampleHost (.addTable .ip6)

theorem possible_halfInstalled : sampleTable.Possible
    ((setupUdpHandling sampleQuicPorts .ip6).run (halfInstalled sampleQuicPorts)).1 :=
  ⟨fun _ => rfl, fun _ => rfl, nofun, fun _ => rfl, fun _ => rfl, fun _ => rfl, fun _ => rfl,
    fun _ => rfl, fun _ => rfl, trivial⟩

theorem error_or_quicCovered_sample :
    (sampleTable.after ((setupUdpHandling sampleQuicPorts .ip6).run
      (halfInstalled sampleQuicPorts)).1).QuicCovered .ip6 sampleQuicPorts := by
  have hruns := runs_run (halfInstalled sampleQuicPorts) (setupUdpHandling sampleQuicPorts .ip6)
  refine (error_or_quicCovered hruns possible_halfInstalled).resolve_left ?_
  rintro ⟨e, he⟩
  cases he

end TransProxy.Firewall
