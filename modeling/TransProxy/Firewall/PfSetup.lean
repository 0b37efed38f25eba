import Mathlib.Logic.Function.Basic
import TransProxy.Firewall.Pf
import TransProxy.Firewall.PfConf
import TransProxy.Library.Crash

/-!
# The firewall setup on macOS

`setup` and `teardown` as scripts of operations on the host: its switches for forwarding, the
anchor, the main ruleset that pf works with, and the file that this was loaded from.
-/
namespace TransProxy.Firewall.Pf
open Library Script

inductive Op where
  | setForwarding (f : NftFamily) (on : Bool)
  /-- `pfctl -a trans_proxy -f /dev/stdin` -/
  | loadAnchor (rules : String)
  /-- `pfctl -s rules` and `pfctl -s nat` -/
  | listRules
  | listNat
  | readConf
  /-- `pfctl -f /dev/stdin` -/
  | loadMain (conf : String)
  /-- `pfctl -f /etc/pf.conf` -/
  | loadConf
  | enable
  | verify
  | flushAnchor

inductive Failure where
  | notStarted (error : String)
  | noInput (error : String)
  | noWait (error : String)
  /-- Without a code if the program was killed. -/
  | exited (code : Option ℤ) (stderr : String)

inductive Answer where
  | ok
  | output (text : String)
  /-- It may have been done all the same. -/
  | failed (took : Bool) (failure : Failure)

def forwardingKey : NftFamily → String
  | .ip => "net.inet.ip.forwarding"
  | .ip6 => "net.inet6.ip6.forwarding"

def forwardingText (f : NftFamily) (on : Bool) : String :=
  forwardingKey f ++ "=" ++ if on then "1" else "0"

def Failure.error : Failure → String
  | notStarted error | noInput error | noWait error => error
  | exited _ stderr => stderr

def sysctlError (f : NftFamily) (on : Bool) : Failure → String
  | .exited code _ =>
    let shown := match code with
      | none => "None"
      | some code => "Some(" ++ toString code ++ ")"
    "sysctl -w " ++ forwardingText f on ++ " failed (exit code: " ++ shown ++ ")"
  | failure => "Failed to run sysctl: " ++ failure.error

def pfctlError (spawn write exit : String) : Failure → String
  | .notStarted error => spawn ++ ": " ++ error
  | .noInput error => write ++ ": " ++ error
  | .noWait error => "Failed to wait for pfctl: " ++ error
  | .exited _ stderr => exit ++ ": " ++ stderr

def reported (error : Failure → String) : Op → Answer → Option String
  | _, .failed _ failure => some (error failure)
  | _, _ => none

abbrev PfScript := Script Op Answer String

def sysctl (f : NftFamily) (on : Bool) : PfScript Unit :=
  check (reported (sysctlError f on)) (.setForwarding f on)

def loadPfRules (rules : String) : PfScript Unit :=
  check (reported (pfctlError "Failed to spawn pfctl" "Failed to write pf rules to pfctl stdin"
    "pfctl failed")) (.loadAnchor rules)

def contains (text part : String) : Bool := decide (part.toList <:+: text.toList)

def showsReferences (filter nat : String) : Bool :=
  contains filter anchorLine && contains nat rdrAnchorLine

def anchorReferenced : PfScript Bool :=
  .command .listRules fun filter =>
    .command .listNat fun nat =>
      .done (match filter, nat with
        | .output filter, .output nat => showsReferences filter nat
        | _, _ => false)

def readConf : PfScript String :=
  .command .readConf fun
    | .output conf => .done conf
    | .failed _ failure =>
      .fail ("Failed to read /etc/pf.conf before loading main pf ruleset: " ++ failure.error)
    | .ok => .done ""

def ensureAnchorReferenced : PfScript Unit := do
  let fullConf ← readConf
  check (reported (pfctlError "Failed to spawn pfctl to load main ruleset"
    "Failed to write pf.conf to pfctl stdin"
    "pfctl failed to load main ruleset with anchor references"))
    (.loadMain (mainRulesetWithAnchorReferences fullConf))

/-- The addresses of the interface are those that `get_interface_ips` finds on the way. -/
def setup (fw : FirewallConfig) (addrs : InterfaceAddrs) : PfScript Unit := do
  sysctl .ip true
  sysctl .ip6 true
  loadPfRules (rulesText fw addrs)
  let referenced ← anchorReferenced
  if referenced then pure () else ensureAnchorReferenced
  .ignore .enable
  .ignore .verify

def teardown : PfScript Unit := do
  .ignore .flushAnchor
  .ignore .loadConf
  sysctl .ip false
  .ignore (.setForwarding .ip6 false)

/-- What `pfctl` makes of rulesets: which are loaded, and how the main one is listed. -/
structure Pfctl where
  accepts : String → Bool
  acceptsAnchor : String → Bool
  rules : String → String
  nat : String → String

/-- The anchor is shown to be evaluated. -/
def Pfctl.References (ctl : Pfctl) (main : String) : Prop :=
  showsReferences (ctl.rules main) (ctl.nat main) = true

structure Host where
  forwarding : NftFamily → Bool
  /-- Empty when there is nothing in the anchor. -/
  anchor : String
  main : String
  /-- What is in `/etc/pf.conf`. -/
  conf : Option String

def Op.apply (h : Host) : Op → Host
  | .setForwarding f on => { h with forwarding := Function.update h.forwarding f on }
  | .loadAnchor rules => { h with anchor := rules }
  | .loadMain conf => { h with main := conf }
  | .loadConf => { h with main := h.conf.getD h.main }
  | .flushAnchor => { h with anchor := "" }
  | .listRules | .listNat | .readConf | .enable | .verify => h

def Op.effect (op : Op) (answer : Answer) (h : Host) : Host :=
  match answer with
  | .failed false _ => h
  | _ => op.apply h

/-- The answers that a host can give. A ruleset is loaded as a whole or not at all. -/
def Op.Allowed (ctl : Pfctl) (h : Host) : Op → Answer → Prop
  | .listRules, .output text => text = ctl.rules h.main
  | .listNat, .output text => text = ctl.nat h.main
  | .readConf, .output text => h.conf = some text
  | .loadAnchor rules, .ok => ctl.acceptsAnchor rules = true
  | .loadAnchor rules, .failed took _ => took = true → ctl.acceptsAnchor rules = true
  | .loadMain conf, .ok => ctl.accepts conf = true
  | .loadMain conf, .failed took _ => took = true → ctl.accepts conf = true
  | .loadConf, .ok => ∃ conf, h.conf = some conf ∧ ctl.accepts conf = true
  | .loadConf, .failed took _ =>
    took = true → ∃ conf, h.conf = some conf ∧ ctl.accepts conf = true
  | .setForwarding _ _, .ok | .enable, .ok | .verify, .ok | .flushAnchor, .ok => True
  | _, .failed _ _ => True
  | _, _ => False

def Host.after (h : Host) (trace : List (Op × Answer)) : Host := Script.after Op.effect h trace

/-- The trace is one that can happen on the host. -/
def Host.Answers (ctl : Pfctl) (h : Host) (trace : List (Op × Answer)) : Prop :=
  Allows Op.effect (Op.Allowed ctl) h trace

end TransProxy.Firewall.Pf
