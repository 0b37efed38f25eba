import TransProxy.Firewall.Packets
import TransProxy.Firewall.Setup

/-!
# What commands act on

Which commands the section of a family gives, and what stays as it was under commands for
something else.
-/
namespace TransProxy.Firewall
open Library Net Script

def Cmd.family : Cmd → NftFamily
  | .deleteTable f => f
  | .addTable f => f
  | .addChain f _ => f
  | .addRule f _ _ => f
  | .setForwarding f _ => f
  | .ruleDel f => f
  | .ruleAdd f => f
  | .routeFlush f => f
  | .routeAdd f => f

/-- The rules that the setups of some configuration put into a chain. -/
inductive RuleOfSetup : Chain → Rule → Prop
  | prerouting {f : NftFamily} {fw : FirewallConfig} {addrs : InterfaceAddrs} {rule : Rule}
      (h : rule ∈ preroutingRules f fw addrs) : RuleOfSetup .prerouting rule
  | output {f : NftFamily} {fw : FirewallConfig} {addrs : InterfaceAddrs} {fwmark : UInt32}
      {rule : Rule} (h : rule ∈ outputRules f fw addrs fwmark) : RuleOfSetup .output rule
  | tproxyPrerouting (fw : FirewallConfig) (port : UInt16) :
      RuleOfSetup .tproxyPrerouting (tproxyRule fw port)
  | quicForward (iface : String) (port : UInt16) :
      RuleOfSetup .quicForward (quicDropRule (.iifname iface) port)
  | quicOutput (iface : String) (port : UInt16) :
      RuleOfSetup .quicOutput (quicDropRule (.oifname iface) port)

/-- The commands of the section of a family. -/
inductive OfSection (f : NftFamily) : Cmd → Prop
  | addTable : OfSection f (.addTable f)
  | addChain (c : Chain) : OfSection f (.addChain f c)
  | addRule {c : Chain} {rule : Rule} (h : RuleOfSetup c rule) : OfSection f (.addRule f c rule)

theorem OfSection.family {f : NftFamily} {cmd : Cmd} (h : OfSection f cmd) : cmd.family = f := by
  cases h <;> rfl

theorem OfSection.program {f : NftFamily} {cmd : Cmd} (h : OfSection f cmd) :
    cmd.program = "nft" := by
  cases h <;> rfl

section Issued
variable {f : NftFamily} {fw : FirewallConfig} {addrs : InterfaceAddrs} {c : Chain}
  {rules : List Rule}

theorem ofSection_chainCmds (h : ∀ rule ∈ rules, RuleOfSetup c rule) :
    ∀ cmd ∈ chainCmds f c rules, OfSection f cmd := by
  intro cmd hcmd
  rcases List.mem_cons.mp hcmd with rfl | hcmd
  · exact .addChain c
  · obtain ⟨rule, hrule, rfl⟩ := List.mem_map.mp hcmd
    exact .addRule (h rule hrule)

theorem ofSection_natCmds : ∀ cmd ∈ natCmds f fw addrs, OfSection f cmd := by
  intro cmd hcmd
  rcases List.mem_cons.mp hcmd with rfl | hcmd
  · exact .addTable
  rcases List.mem_append.mp hcmd with hcmd | hcmd
  · exact ofSection_chainCmds (fun rule hrule => .prerouting hrule) cmd hcmd
  · cases hmark : fw.fwmark with
    | none => simp [hmark] at hcmd
    | some fwmark =>
      rw [hmark] at hcmd
      exact ofSection_chainCmds (fun rule hrule => .output hrule) cmd hcmd

theorem issues_setupQuicBlockOutput : (setupQuicBlockOutput fw f).Issues (OfSection f) := by
  unfold setupQuicBlockOutput
  split_ifs
  · exact issues_done ()
  · apply issues_checkAll
    apply ofSection_chainCmds
    simp only [List.forall_mem_map]
    exact fun port _ => .quicOutput fw.interface port

theorem issues_setupQuicBlock : (setupQuicBlock fw f).Issues (OfSection f) := by
  unfold setupQuicBlock
  split_ifs
  · exact issues_done ()
  · apply issues_bind
    · apply issues_checkAll
      apply ofSection_chainCmds
      simp only [List.forall_mem_map]
      exact fun port _ => .quicForward fw.interface port
    · exact fun _ => issues_setupQuicBlockOutput

theorem issues_setupUdpTproxy : (setupUdpTproxy fw f).Issues (OfSection f) := by
  unfold setupUdpTproxy
  split_ifs
  · exact issues_done ()
  · apply issues_checkAll
    apply ofSection_chainCmds
    simp only [List.forall_mem_map]
    exact fun port _ => .tproxyPrerouting fw port

theorem issues_setupUdpHandling : (setupUdpHandling fw f).Issues (OfSection f) := by
  unfold setupUdpHandling
  split_ifs
  · apply issues_bind (issues_attempt issues_setupUdpTproxy)
    intro tproxy
    cases tproxy with
    | ok _ => exact issues_setupQuicBlockOutput
    | error _ => exact issues_setupQuicBlock
  · exact issues_setupQuicBlock
  · exact issues_done ()

theorem issues_setupFamily : (setupFamily f fw addrs).Issues (OfSection f) :=
  issues_bind (issues_checkAll ofSection_natCmds) fun _ => issues_setupUdpHandling

end Issued

namespace Host
variable {host : Host} {f g : NftFamily} {c d : Chain} {cmd : Cmd} {o : Outcome}
  {trace : List (Cmd × Outcome)}

/-- What the commands of a family act on. -/
def part (f : NftFamily) (host : Host) : Option Table × Bool × ℕ × Bool :=
  (host.tables f, host.forwarding f, host.markRules f, host.markRoute f)

theorem part_effect (h : cmd.family ≠ f) : (cmd.effect o host).part f = host.part f := by
  apply Cmd.effect_frame (part f)
  have hne := h.symm
  cases cmd <;> simp only [Cmd.family] at hne <;>
    simp [part, Cmd.apply, Function.update_of_ne hne]

theorem part_after (h : ∀ e ∈ trace, e.1.family ≠ f) :
    (host.after trace).part f = host.part f :=
  after_frame fun e he _ => part_effect (h e he)

theorem tables_effect (h : cmd.program ≠ "nft") : (cmd.effect o host).tables = host.tables := by
  apply Cmd.effect_frame Host.tables
  cases cmd <;> simp_all [Cmd.apply, Cmd.program]

theorem tables_after (h : ∀ e ∈ trace, e.1.program ≠ "nft") :
    (host.after trace).tables = host.tables :=
  after_frame fun e he _ => tables_effect (h e he)

theorem forwarding_effect (h : cmd.program ≠ "sysctl") :
    (cmd.effect o host).forwarding = host.forwarding := by
  apply Cmd.effect_frame Host.forwarding
  cases cmd <;> simp_all [Cmd.apply, Cmd.program]

theorem forwarding_after (h : ∀ e ∈ trace, e.1.program ≠ "sysctl") :
    (host.after trace).forwarding = host.forwarding :=
  after_frame fun e he _ => forwarding_effect (h e he)

theorem markRules_effect (h : cmd.program ≠ "ip") :
    (cmd.effect o host).markRules = host.markRules := by
  apply Cmd.effect_frame Host.markRules
  cases cmd <;> simp_all [Cmd.apply, Cmd.program]

theorem markRoute_effect (h : cmd.program ≠ "ip") :
    (cmd.effect o host).markRoute = host.markRoute := by
  apply Cmd.effect_frame Host.markRoute
  cases cmd <;> simp_all [Cmd.apply, Cmd.program]

/-- Only the commands of `ip` act on the policy routing. -/
theorem routing_after (h : ∀ e ∈ trace, e.1.program ≠ "ip") :
    (host.after trace).markRules = host.markRules ∧
      (host.after trace).markRoute = host.markRoute :=
  ⟨after_frame fun e he _ => markRules_effect (h e he),
    after_frame fun e he _ => markRoute_effect (h e he)⟩

theorem rules_congr {host' : Host} (h : host'.tables f = host.tables f) :
    host'.rules f c = host.rules f c := by
  simp only [rules, chain, h]

theorem after_append {more : List (Cmd × Outcome)} :
    host.after (trace ++ more) = (host.after trace).after more :=
  Script.after_append

end Host
end TransProxy.Firewall
