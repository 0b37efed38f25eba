import Mathlib.Logic.Function.Basic
import TransProxy.Library.PacketFilter
import TransProxy.Net.Addr

/-!
# The commands of the firewall setup, and the kernel state they act on

The tables, chains and rules of nftables with the text that the commands write for them,
and the policy routing for packets that carry the TPROXY mark. A command that fails has
no effect.
-/
namespace TransProxy.Firewall
open Library Net

inductive NftFamily where
  | ip
  | ip6
deriving DecidableEq

def NftFamily.table : NftFamily → String
  | .ip => "ip"
  | .ip6 => "ip6"

def NftFamily.of : IpAddr → NftFamily
  | .v4 _ => .ip
  | .v6 _ => .ip6

inductive Hook where
  | prerouting
  | forward
  | output
deriving DecidableEq

inductive Chain where
  | prerouting
  | output
  | tproxyPrerouting
  | quicForward
  | quicOutput
deriving DecidableEq

namespace Chain

def all : List Chain := [prerouting, output, tproxyPrerouting, quicForward, quicOutput]

def name : Chain → String
  | prerouting => "prerouting"
  | output => "output"
  | tproxyPrerouting => "tproxy_prerouting"
  | quicForward => "quic_forward"
  | quicOutput => "quic_output"

def spec : Chain → String
  | prerouting => "\x7b type nat hook prerouting priority -100 ; \x7d"
  | output => "\x7b type nat hook output priority -100 ; \x7d"
  | tproxyPrerouting => "\x7b type filter hook prerouting priority mangle ; \x7d"
  | quicForward => "\x7b type filter hook forward priority 0 ; \x7d"
  | quicOutput => "\x7b type filter hook output priority 0 ; \x7d"

/-- What the specification says; `mangle` is -150. -/
def base : Chain → PacketFilter.Base Hook
  | prerouting => ⟨.prerouting, -100⟩
  | output => ⟨.output, -100⟩
  | tproxyPrerouting => ⟨.prerouting, -150⟩
  | quicForward => ⟨.forward, 0⟩
  | quicOutput => ⟨.output, 0⟩

def atHook (hook : Hook) : List Chain := PacketFilter.atHook base all hook

@[simp] theorem atHook_prerouting : atHook .prerouting = [tproxyPrerouting, prerouting] := by
  decide

@[simp] theorem atHook_forward : atHook .forward = [quicForward] := by decide

@[simp] theorem atHook_output : atHook .output = [output, quicOutput] := by decide

end Chain

def dnatTarget (ip : IpAddr) (port : UInt16) : String :=
  match ip with
  | .v4 ip => ip.display ++ ":" ++ toString port.toNat
  | .v6 ip => "[" ++ ip.display ++ "]:" ++ toString port.toNat

inductive Expr where
  | iifname (name : String)
  | oifname (name : String)
  | daddr (ip : IpAddr)
  | tcpDport (port : UInt16)
  | udpDport (port : UInt16)
  | l4protoTcp
  | mark (value : UInt32)
  | fibDaddrLocal
  | dnatTo (ip : IpAddr) (port : UInt16)
  | redirectTo (port : UInt16)
  | tproxyTo (port : UInt16)
  | markSet (value : UInt32) (text : String)
  | ret
  | accept
  | drop
deriving DecidableEq

def Expr.args : Expr → List String
  | .iifname name => ["iifname", name]
  | .oifname name => ["oifname", name]
  | .daddr ip => [(NftFamily.of ip).table, "daddr", ip.display]
  | .tcpDport port => ["tcp", "dport", toString port.toNat]
  | .udpDport port => ["udp", "dport", toString port.toNat]
  | .l4protoTcp => ["meta", "l4proto", "tcp"]
  | .mark value => ["meta", "mark", toString value.toNat]
  | .fibDaddrLocal => ["fib", "daddr", "type", "local"]
  | .dnatTo ip port => ["dnat", "to", dnatTarget ip port]
  | .redirectTo port => ["redirect", "to", ":" ++ toString port.toNat]
  | .tproxyTo port => ["tproxy", "to", ":" ++ toString port.toNat]
  | .markSet _ text => ["meta", "mark", "set", text]
  | .ret => ["return"]
  | .accept => ["accept"]
  | .drop => ["drop"]

abbrev Rule := List Expr

/-- `TPROXY_MARK` and `TPROXY_MASK`. -/
def tproxyMark : UInt32 := 0x40000000

def tproxyMarkText : String := "0x40000000"

def tproxyMask : String := "0x40000000"

def tproxyTable : String := "0x2333"

def tproxyFwmarkSpec : String := tproxyMarkText ++ "/" ++ tproxyMask

inductive Cmd where
  | deleteTable (family : NftFamily)
  | addTable (family : NftFamily)
  | addChain (family : NftFamily) (chain : Chain)
  | addRule (family : NftFamily) (chain : Chain) (rule : Rule)
  | setForwarding (family : NftFamily) (on : Bool)
  | ruleDel (family : NftFamily)
  | ruleAdd (family : NftFamily)
  | routeFlush (family : NftFamily)
  | routeAdd (family : NftFamily)
deriving DecidableEq

namespace Cmd

def program : Cmd → String
  | deleteTable _ => "nft"
  | addTable _ => "nft"
  | addChain _ _ => "nft"
  | addRule _ _ _ => "nft"
  | setForwarding _ _ => "sysctl"
  | ruleDel _ => "ip"
  | ruleAdd _ => "ip"
  | routeFlush _ => "ip"
  | routeAdd _ => "ip"

/-- `ip` is told of a family only if it is not IPv4. -/
def familyFlag : NftFamily → List String
  | .ip => []
  | .ip6 => ["-6"]

def forwardingKey : NftFamily → String
  | .ip => "net.ipv4.ip_forward"
  | .ip6 => "net.ipv6.conf.all.forwarding"

def anyDestination : NftFamily → String
  | .ip => "0.0.0.0/0"
  | .ip6 => "::/0"

def args : Cmd → List String
  | deleteTable family => ["delete", "table", family.table, "trans_proxy"]
  | addTable family => ["add", "table", family.table, "trans_proxy"]
  | addChain family chain => ["add", "chain", family.table, "trans_proxy", chain.name, chain.spec]
  | addRule family chain rule =>
    ["add", "rule", family.table, "trans_proxy", chain.name] ++ rule.flatMap Expr.args
  | setForwarding family on => ["-w", forwardingKey family ++ if on then "=1" else "=0"]
  | ruleDel family =>
    familyFlag family ++ ["rule", "del", "fwmark", tproxyFwmarkSpec, "lookup", tproxyTable]
  | ruleAdd family =>
    familyFlag family ++ ["rule", "add", "fwmark", tproxyFwmarkSpec, "lookup", tproxyTable]
  | routeFlush family => familyFlag family ++ ["route", "flush", "table", tproxyTable]
  | routeAdd family =>
    familyFlag family ++ ["route", "add", "local", anyDestination family, "dev", "lo", "table",
      tproxyTable]

end Cmd

inductive Outcome where
  | success
  | notStarted (error : String)
  | failed (code : Option ℤ)
deriving DecidableEq

def runCmdError (cmd : Cmd) : Outcome → Option String
  | .success => none
  | .notStarted error => some ("Failed to run " ++ cmd.program ++ ": " ++ error)
  | .failed code =>
    let shown := match code with
      | none => "None"
      | some code => "Some(" ++ toString code ++ ")"
    some (cmd.program ++ " " ++ " ".intercalate cmd.args ++ " failed (exit code: " ++ shown ++ ")")

theorem runCmdError_eq_none_iff {cmd : Cmd} {o : Outcome} :
    runCmdError cmd o = none ↔ o = .success := by
  cases o <;> simp [runCmdError]

theorem runCmdError_ne_none {cmd : Cmd} {o : Outcome} {e : String}
    (h : runCmdError cmd o = some e) : o ≠ .success := by
  intro ho
  rw [runCmdError_eq_none_iff.mpr ho] at h
  cases h

abbrev Table := Chain → Option (List Rule)

structure Host where
  /-- The tables with the name `trans_proxy`. -/
  tables : NftFamily → Option Table
  forwarding : NftFamily → Bool
  /-- How often the lookup rule for the TPROXY mark is installed. -/
  markRules : NftFamily → ℕ
  /-- Whether the TPROXY table has the local route to everywhere. -/
  markRoute : NftFamily → Bool

/-- What a command does if it succeeds. A table or chain that exists already is kept. -/
def Cmd.apply (host : Host) : Cmd → Host
  | .deleteTable f => { host with tables := Function.update host.tables f none }
  | .addTable f =>
    { host with
      tables := Function.update host.tables f (some ((host.tables f).getD fun _ => none)) }
  | .addChain f c =>
    { host with
      tables := Function.update host.tables f
        ((host.tables f).map fun t => Function.update t c (some ((t c).getD []))) }
  | .addRule f c rule =>
    { host with
      tables := Function.update host.tables f
        ((host.tables f).map fun t => Function.update t c ((t c).map (· ++ [rule]))) }
  | .setForwarding f on => { host with forwarding := Function.update host.forwarding f on }
  | .ruleDel f => { host with markRules := Function.update host.markRules f (host.markRules f - 1) }
  | .ruleAdd f => { host with markRules := Function.update host.markRules f (host.markRules f + 1) }
  | .routeFlush f => { host with markRoute := Function.update host.markRoute f false }
  | .routeAdd f => { host with markRoute := Function.update host.markRoute f true }

def Cmd.effect (cmd : Cmd) (o : Outcome) (host : Host) : Host :=
  if o = .success then cmd.apply host else host

/-- What holds of the host and survives the command done holds after it, done or not. -/
theorem Cmd.effect_induction {cmd : Cmd} {o : Outcome} {host : Host} {P : Host → Prop}
    (h : P host) (happly : P (cmd.apply host)) : P (cmd.effect o host) := by
  unfold Cmd.effect
  split_ifs
  · exact happly
  · exact h

/-- What the command done keeps, it keeps done or not. -/
theorem Cmd.effect_frame {cmd : Cmd} {o : Outcome} {host : Host} {α : Type*} (read : Host → α)
    (happly : read (cmd.apply host) = read host) : read (cmd.effect o host) = read host :=
  Cmd.effect_induction (P := fun x => read x = read host) rfl happly

def Host.chain (host : Host) (f : NftFamily) (c : Chain) : Option (List Rule) :=
  (host.tables f).bind (· c)

namespace Host
variable (host : Host) {f g : NftFamily} {c d : Chain} {rule : Rule}

theorem chain_addRule : (Cmd.apply host (.addRule f c rule)).chain g d =
    if g = f ∧ d = c then (host.chain f c).map (· ++ [rule]) else host.chain g d := by
  by_cases hg : g = f
  · subst hg
    by_cases hd : d = c
    · subst hd
      cases h : host.tables g <;> simp [chain, Cmd.apply, h]
    · cases h : host.tables g <;> simp [chain, Cmd.apply, h, hd]
  · simp [chain, Cmd.apply, hg]

theorem chain_addChain : (Cmd.apply host (.addChain f c)).chain g d =
    if g = f ∧ d = c then (host.tables f).map (fun t => (t c).getD []) else host.chain g d := by
  by_cases hg : g = f
  · subst hg
    by_cases hd : d = c
    · subst hd
      cases h : host.tables g <;> simp [chain, Cmd.apply, h]
    · cases h : host.tables g <;> simp [chain, Cmd.apply, h, hd]
  · simp [chain, Cmd.apply, hg]

theorem chain_addTable : (Cmd.apply host (.addTable f)).chain g d = host.chain g d := by
  by_cases hg : g = f
  · subst hg
    cases h : host.tables g <;> simp [chain, Cmd.apply, h]
  · simp [chain, Cmd.apply, hg]

end Host
end TransProxy.Firewall
