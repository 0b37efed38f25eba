import TransProxy.Firewall.PfSetup

/-!
# What the setup for pf leaves behind

A setup that succeeds has its rules in an anchor that the main ruleset refers to. Whatever setups
and teardowns were cut off on the way, the main ruleset is that of the system, with the references
or without.
-/
namespace TransProxy.Firewall.Pf
open Library Script

/-! ## Single operations -/

section Steps
variable {ctl : Pfctl} {P Q : Host → Prop} {op : Op} {error : Failure → String}

/-- `R` holds of a result. -/
def Establishes {α : Type} (ctl : Pfctl) (P : Host → Prop) (s : PfScript α)
    (R : α → Host → Prop) : Prop :=
  Upholds Op.effect (Op.Allowed ctl) (fun _ => True) P s R

theorem effect_of_reported {answer : Answer} {h : Host} (hok : reported error op answer = none) :
    op.effect answer h = op.apply h := by
  cases answer with
  | ok => rfl
  | output text => rfl
  | failed took failure => cases hok

theorem establishes_check (hstep : ∀ h answer, P h → op.Allowed ctl h answer →
    reported error op answer = none → Q (op.apply h)) :
    Establishes ctl P (check (reported error) op) fun _ => Q := by
  apply upholds_check (fun _ _ => trivial)
  intro h answer hh hallowed
  refine ⟨trivial, fun hok => ?_⟩
  rw [effect_of_reported hok]
  exact hstep h answer hh hallowed hok

theorem establishes_ignore (hstep : ∀ h, P h → P (op.apply h)) :
    Establishes ctl P (.ignore op) fun _ => P := by
  apply upholds_ignore (fun _ _ => trivial)
  intro h answer hh _
  refine ⟨trivial, ?_⟩
  unfold Op.effect
  split
  · exact hh
  · exact hstep h hh

end Steps

/-! ## A setup that succeeds -/

/-- A main ruleset with the two lines shows the two references. -/
def Pfctl.ListsReferences (ctl : Pfctl) : Prop := ∀ main, ctl.accepts main = true →
  hasPfConfLine main rdrAnchorLine = true → hasPfConfLine main anchorLine = true →
    ctl.References main

/-- Forwarding and the anchor, with the main ruleset and its file as they were on the first host. -/
structure Host.Loaded (first : Host) (rules : String) (h : Host) : Prop where
  forwarding : ∀ f, h.forwarding f = true
  anchor : h.anchor = rules
  main : h.main = first.main
  conf : h.conf = first.conf

structure Host.Complete (first : Host) (ctl : Pfctl) (rules : String) (h : Host) : Prop where
  forwarding : ∀ f, h.forwarding f = true
  anchor : h.anchor = rules
  references : ctl.References h.main
  conf : h.conf = first.conf
  main : h.main = first.main ∨ ∃ conf, first.conf = some conf ∧
    h.main = mainRulesetWithAnchorReferences conf ∧ ctl.accepts h.main = true

section Setup
variable {ctl : Pfctl} {first : Host} {rules : String} {op : Op}

theorem effect_of_asks (hop : ∀ h, op.apply h = h) (answer : Answer) (h : Host) :
    op.effect answer h = h := by
  unfold Op.effect
  split
  · rfl
  · exact hop h

theorem establishes_anchorReferenced : Establishes ctl (first.Loaded rules) anchorReferenced
    fun b h => first.Loaded rules h ∧ (b = true → ctl.References h.main) := by
  -- what the listings say, if they say something
  let Filtered (filter : Answer) (h : Host) : Prop :=
    first.Loaded rules h ∧ ∀ text, filter = .output text → text = ctl.rules h.main
  apply upholds_command (R := Filtered) (fun _ _ => trivial)
  · intro h filter hh hallowed
    rw [effect_of_asks (fun _ => rfl)]
    refine ⟨hh, ?_⟩
    rintro text rfl
    exact hallowed
  · intro filter
    let Listed (nat : Answer) (h : Host) : Prop :=
      Filtered filter h ∧ ∀ text, nat = .output text → text = ctl.nat h.main
    apply upholds_command (R := Listed) (fun _ _ => trivial)
    · intro h nat hh hallowed
      rw [effect_of_asks (fun _ => rfl)]
      refine ⟨hh, ?_⟩
      rintro text rfl
      exact hallowed
    · intro nat
      apply upholds_done (fun _ _ => trivial)
      rintro h ⟨⟨hh, hfilter⟩, hnat⟩
      refine ⟨hh, fun hshown => ?_⟩
      cases filter with
      | output filterText =>
        cases nat with
        | output natText =>
          rw [Pfctl.References, ← hfilter _ rfl, ← hnat _ rfl]
          exact hshown
        | ok => cases hshown
        | failed took failure => cases hshown
      | ok => cases hshown
      | failed took failure => cases hshown

theorem establishes_readConf : Establishes ctl (first.Loaded rules) readConf
    fun conf h => first.Loaded rules h ∧ first.conf = some conf := by
  let Read (answer : Answer) (h : Host) : Prop :=
    first.Loaded rules h ∧ answer ≠ .ok ∧ ∀ conf, answer = .output conf → first.conf = some conf
  apply upholds_command (R := Read) (fun _ _ => trivial)
  · intro h answer hh hallowed
    rw [effect_of_asks (fun _ => rfl)]
    refine ⟨hh, ?_, ?_⟩
    · rintro rfl
      exact hallowed
    · rintro conf rfl
      exact hh.conf.symm.trans hallowed
  · intro answer
    cases answer with
    | output conf => exact upholds_done (fun _ _ => trivial) fun h hh => ⟨hh.1, hh.2.2 conf rfl⟩
    | failed took failure => exact upholds_fail (fun _ _ => trivial)
    | ok => exact upholds_done (fun _ _ => trivial) fun h hh => absurd rfl hh.2.1

theorem complete_of_loadMain {h : Host} {main conf : String} (hh : first.Loaded rules h)
    (hconf : first.conf = some conf) (hmain : main = mainRulesetWithAnchorReferences conf)
    (haccepts : ctl.accepts main = true) (hshown : ctl.References main) :
    first.Complete ctl rules (Op.apply h (.loadMain main)) :=
  ⟨hh.forwarding, hh.anchor, hshown, hh.conf, .inr ⟨conf, hconf, hmain, haccepts⟩⟩

theorem establishes_ensureAnchorReferenced (hlists : ctl.ListsReferences) :
    Establishes ctl (first.Loaded rules) ensureAnchorReferenced
      fun _ => first.Complete ctl rules := by
  apply upholds_bind establishes_readConf
  · intro conf
    apply establishes_check
    rintro h answer ⟨hh, hconf⟩ hallowed hok
    have haccepts : ctl.accepts (mainRulesetWithAnchorReferences conf) = true := by
      cases answer with
      | ok => exact hallowed
      | output text => cases hallowed
      | failed took failure => cases hok
    obtain ⟨hrdr, hanchor⟩ := hasPfConfLine_references conf
    exact complete_of_loadMain hh hconf rfl haccepts (hlists _ haccepts hrdr hanchor)

theorem complete_of_shown {h : Host} (hh : first.Loaded rules h) (hshown : ctl.References h.main) :
    first.Complete ctl rules h :=
  ⟨hh.forwarding, hh.anchor, hshown, hh.conf, .inl hh.main⟩

/-- pf is enabled and asked for its rules, with no change to what it works with. -/
theorem establishes_enable : Establishes ctl (first.Complete ctl rules)
    (Script.bind (.ignore .enable) fun _ => .ignore .verify)
    fun _ => first.Complete ctl rules := by
  apply upholds_bind (establishes_ignore fun _ hh => hh)
  exact fun _ => establishes_ignore fun _ hh => hh

theorem establishes_setup (hlists : ctl.ListsReferences) (fw : FirewallConfig)
    (addrs : InterfaceAddrs) : Establishes ctl (fun h => h = first) (setup fw addrs)
      fun _ => first.Complete ctl (rulesText fw addrs) := by
  apply upholds_bind (R := fun _ h => h = Op.apply first (.setForwarding .ip true))
  · apply establishes_check
    rintro h answer rfl _ _
    rfl
  intro _
  apply upholds_bind (R := fun _ => first.Loaded first.anchor)
  · apply establishes_check
    rintro h answer rfl _ _
    refine ⟨?_, rfl, rfl, rfl⟩
    intro f
    cases f <;> rfl
  intro _
  apply upholds_bind (R := fun _ => first.Loaded (rulesText fw addrs))
  · apply establishes_check
    rintro h answer hh _ _
    exact ⟨hh.forwarding, rfl, hh.main, hh.conf⟩
  intro _
  apply upholds_bind establishes_anchorReferenced
  intro referenced
  cases referenced with
  | true =>
    exact establishes_enable.mono (fun h hh => complete_of_shown hh.1 (hh.2 rfl)) fun _ _ h => h
  | false =>
    apply upholds_bind ((establishes_ensureAnchorReferenced hlists).mono (fun h hh => hh.1)
      fun _ _ h => h)
    exact fun _ => establishes_enable

end Setup

/-- A setup that succeeds, on whatever host: forwarding is on, the anchor holds its rules, and pf
shows that the main ruleset refers to it. That ruleset is the one from before, or the one of the
system with the references; its file is not touched. -/
theorem pf_setup_complete {ctl : Pfctl} (hlists : ctl.ListsReferences) {fw : FirewallConfig}
    {addrs : InterfaceAddrs} {first : Host} {trace : List (Op × Answer)}
    (hruns : (setup fw addrs).Runs trace (.ok ())) (hanswers : first.Answers ctl trace) :
    first.Complete ctl (rulesText fw addrs) (first.after trace) :=
  (establishes_setup hlists fw addrs).result rfl hruns hanswers

/-! ## Whether a setup can succeed -/

/-- Every operation succeeds on a host with the ruleset of its file. -/
def freshAnswer (ctl : Pfctl) (conf : String) : Op → Answer
  | .listRules => .output (ctl.rules conf)
  | .listNat => .output (ctl.nat conf)
  | .readConf => .output conf
  | _ => .ok

section Fresh
variable {ctl : Pfctl} {conf : String} {first : Host} (fw : FirewallConfig) (addrs : InterfaceAddrs)

theorem run_fresh (hunshown : ¬ctl.References conf) :
    (setup fw addrs).run (freshAnswer ctl conf) =
      ([.setForwarding .ip true, .setForwarding .ip6 true, .loadAnchor (rulesText fw addrs),
        .listRules, .listNat, .readConf, .loadMain (mainRulesetWithAnchorReferences conf),
        .enable, .verify].map (fun op => (op, freshAnswer ctl conf op)), .ok ()) := by
  have hfalse : showsReferences (ctl.rules conf) (ctl.nat conf) = false :=
    Bool.eq_false_iff.mpr hunshown
  simp [setup, sysctl, loadPfRules, anchorReferenced, ensureAnchorReferenced, readConf, check,
    reported, ignore, Script.bind, Script.run, freshAnswer, hfalse]

/-- The setup on a fresh host, which succeeds if both rulesets are loaded. -/
theorem runs_fresh (hmain : first.main = conf) (hconf : first.conf = some conf)
    (hunshown : ¬ctl.References conf) (hanchor : ctl.acceptsAnchor (rulesText fw addrs) = true)
    (haccepts : ctl.accepts (mainRulesetWithAnchorReferences conf) = true) :
    (setup fw addrs).Runs ((setup fw addrs).run (freshAnswer ctl conf)).1 (.ok ()) ∧
      first.Answers ctl ((setup fw addrs).run (freshAnswer ctl conf)).1 := by
  constructor
  · have hresult : ((setup fw addrs).run (freshAnswer ctl conf)).2 = .ok () := by
      rw [run_fresh fw addrs hunshown]
    rw [← hresult]
    exact runs_run (freshAnswer ctl conf) (setup fw addrs)
  · rw [run_fresh fw addrs hunshown]
    simp [Host.Answers, Allows, freshAnswer, Op.Allowed, Op.effect, Op.apply, hmain, hconf,
      hanchor, haccepts]

/-- A setup that succeeds has loaded its rules. -/
theorem establishes_accepted : Establishes ctl (fun _ => True) (setup fw addrs)
    fun _ _ => ctl.acceptsAnchor (rulesText fw addrs) = true := by
  apply upholds_bind (R := fun _ _ => True)
  · exact establishes_check fun _ _ _ _ _ => trivial
  intro _
  apply upholds_bind (R := fun _ _ => True)
  · exact establishes_check fun _ _ _ _ _ => trivial
  intro _
  apply upholds_bind (R := fun _ _ => ctl.acceptsAnchor (rulesText fw addrs) = true)
  · apply establishes_check
    intro h answer _ hallowed hok
    cases answer with
    | ok => exact hallowed
    | output text => cases hallowed
    | failed took failure => cases hok
  exact fun _ => upholds_const

/-- On a host that was just started, whose ruleset does not show the references: a setup can
succeed exactly if pf takes the rules for the anchor, and no translation has to be put behind a
filter statement. -/
theorem pf_setup_possible_iff (hlists : ctl.ListsReferences)
    (hordered : ∀ main, PlainLines main → ctl.accepts main = true → InOrder main)
    (hkept : ∀ main, PlainLines main → ctl.accepts main = true →
      InOrder (mainRulesetWithAnchorReferences main) →
        ctl.accepts (mainRulesetWithAnchorReferences main) = true)
    (hplain : PlainLines conf) (haccepts : ctl.accepts conf = true)
    (hunshown : ¬ctl.References conf) (hmain : first.main = conf)
    (hconf : first.conf = some conf) :
    (∃ trace, (setup fw addrs).Runs trace (.ok ()) ∧ first.Answers ctl trace) ↔
      ctl.acceptsAnchor (rulesText fw addrs) = true ∧
        (hasPfConfLine conf rdrAnchorLine = true ∨
          ∀ line ∈ linesOf conf.toList, PfSection.of line ≠ some .filtering) := by
  rw [← inOrder_mainRuleset_iff (hordered conf hplain haccepts)]
  constructor
  · rintro ⟨trace, hruns, hanswers⟩
    have hcomplete := (establishes_setup hlists fw addrs).result rfl hruns hanswers
    refine ⟨(establishes_accepted fw addrs).result trivial hruns hanswers, ?_⟩
    rcases hcomplete.main with hsame | ⟨conf', hconf', heq, hloaded⟩
    · rw [hmain] at hsame
      exact absurd (hsame ▸ hcomplete.references) hunshown
    · obtain rfl := Option.some.inj (hconf.symm.trans hconf')
      rw [heq] at hloaded
      exact hordered _ (plainLines_mainRuleset hplain) hloaded
  · rintro ⟨hanchor, horder⟩
    have hloaded := hkept conf hplain haccepts horder
    exact ⟨_, runs_fresh fw addrs hmain hconf hunshown hanchor hloaded⟩

end Fresh

/-- Rulesets in order are loaded, and the references in them are listed. -/
def samplePfctl : Pfctl where
  accepts main := decide (InOrder main)
  acceptsAnchor _ := true
  rules main := if hasPfConfLine main anchorLine then anchorLine ++ " all" else ""
  nat main := if hasPfConfLine main rdrAnchorLine then rdrAnchorLine ++ " all" else ""

theorem samplePfctl_accepts (main : String) :
    samplePfctl.accepts main = decide (InOrder main) := rfl

theorem samplePfctl_lists : samplePfctl.ListsReferences := by
  intro main _ hrdr hanchor
  have hrules : samplePfctl.rules main = anchorLine ++ " all" := if_pos hanchor
  have hnat : samplePfctl.nat main = rdrAnchorLine ++ " all" := if_pos hrdr
  rw [Pfctl.References, hrules, hnat]
  decide

def sampleConf : String :=
  "scrub-anchor \x22com.apple/*\x22\n" ++ "rdr-anchor \x22com.apple/*\x22\n"

def sampleFw : FirewallConfig :=
  { interface := "en0", proxyPort := 8443, fwmark := none, upstreamAddr := none, ports := none
    dnsListen := none, blockQuic := true, proxyUdp := false }

def sampleHost : Host :=
  { forwarding := fun _ => false, anchor := "", main := sampleConf, conf := some sampleConf }

theorem sampleConf_accepted : samplePfctl.accepts sampleConf = true ∧
    samplePfctl.accepts (mainRulesetWithAnchorReferences sampleConf) = true := by
  decide

theorem sampleConf_unshown : ¬samplePfctl.References sampleConf := by
  rw [Pfctl.References]
  decide

theorem sampleConf_unfiltered :
    ∀ line ∈ linesOf sampleConf.toList, PfSection.of line ≠ some .filtering := by
  decide

theorem pf_setup_possible_iff_sample :
    ∃ trace, (setup sampleFw ⟨none, none⟩).Runs trace (.ok ()) ∧
      sampleHost.Answers samplePfctl trace := by
  have hordered : ∀ main, PlainLines main → samplePfctl.accepts main = true → InOrder main := by
    intro main _ h
    rwa [samplePfctl_accepts, decide_eq_true_iff] at h
  have hkept : ∀ main, PlainLines main → samplePfctl.accepts main = true →
      InOrder (mainRulesetWithAnchorReferences main) →
        samplePfctl.accepts (mainRulesetWithAnchorReferences main) = true := by
    intro main _ _ h
    rwa [samplePfctl_accepts, decide_eq_true_iff]
  exact (@pf_setup_possible_iff samplePfctl sampleConf sampleHost sampleFw ⟨none, none⟩
    samplePfctl_lists hordered hkept (by decide) sampleConf_accepted.1 sampleConf_unshown rfl
      rfl).mpr ⟨rfl, .inr sampleConf_unfiltered⟩

def sampleSetup : List (Op × Answer) :=
  ((setup sampleFw ⟨none, none⟩).run (freshAnswer samplePfctl sampleConf)).1

theorem runs_sampleSetup : (setup sampleFw ⟨none, none⟩).Runs sampleSetup (.ok ()) ∧
    sampleHost.Answers samplePfctl sampleSetup :=
  runs_fresh sampleFw ⟨none, none⟩ rfl rfl sampleConf_unshown rfl sampleConf_accepted.2

theorem pf_setup_complete_sample : sampleHost.Complete samplePfctl (rulesText sampleFw ⟨none, none⟩)
    (sampleHost.after sampleSetup) :=
  pf_setup_complete samplePfctl_lists runs_sampleSetup.1 runs_sampleSetup.2

/-! ## Histories -/

/-- A host that was started with the ruleset in the file, and on which setups and teardowns were
run, wherever each of them was cut off. -/
inductive Host.Reached (ctl : Pfctl) (conf : String) : Host → Prop
  | boot {h : Host} (hmain : h.main = conf) (hconf : h.conf = some conf) (hanchor : h.anchor = "") :
      Reached ctl conf h
  | setup {h : Host} {fw : FirewallConfig} {addrs : InterfaceAddrs}
      {trace rest : List (Op × Answer)} {result : Except String Unit} (hreached : Reached ctl conf h)
      (hruns : (setup fw addrs).Runs (trace ++ rest) result) (hanswers : h.Answers ctl trace) :
      Reached ctl conf (h.after trace)
  | teardown {h : Host} {trace rest : List (Op × Answer)} {result : Except String Unit}
      (hreached : Reached ctl conf h) (hruns : teardown.Runs (trace ++ rest) result)
      (hanswers : h.Answers ctl trace) : Reached ctl conf (h.after trace)

/-- The main ruleset is that of the file, with the references or without, and the anchor holds the
rules of some setup or nothing. -/
structure Host.Ordinary (conf : String) (h : Host) : Prop where
  file : h.conf = some conf
  main : h.main = conf ∨ h.main = mainRulesetWithAnchorReferences conf
  anchor : h.anchor = "" ∨ ∃ fw addrs, h.anchor = rulesText fw addrs

section Histories
variable {ctl : Pfctl} {conf : String} {h : Host} {op : Op}

/-- The operation is one that keeps hosts ordinary. -/
def Op.Usual (conf : String) : Op → Prop
  | .loadAnchor rules => ∃ fw addrs, rules = rulesText fw addrs
  | .loadMain main => main = mainRulesetWithAnchorReferences conf
  | _ => True

theorem Host.Ordinary.apply (hh : h.Ordinary conf) (hop : op.Usual conf) :
    (op.apply h).Ordinary conf := by
  cases op with
  | setForwarding f on => exact ⟨hh.file, hh.main, hh.anchor⟩
  | loadAnchor rules => exact ⟨hh.file, hh.main, .inr hop⟩
  | loadMain main => exact ⟨hh.file, .inr hop, hh.anchor⟩
  | loadConf => exact ⟨hh.file, .inl (by simp [Op.apply, hh.file]), hh.anchor⟩
  | flushAnchor => exact ⟨hh.file, hh.main, .inl rfl⟩
  | listRules => exact hh
  | listNat => exact hh
  | readConf => exact hh
  | enable => exact hh
  | verify => exact hh

theorem Host.Ordinary.effect (hh : h.Ordinary conf) (hop : op.Usual conf) (answer : Answer) :
    (op.effect answer h).Ordinary conf := by
  unfold Op.effect
  split
  · exact hh
  · exact hh.apply hop

/-- The host stays ordinary wherever the script is cut off. -/
def Keeps {α : Type} (ctl : Pfctl) (conf : String) (s : PfScript α)
    (R : α → Prop) : Prop :=
  Upholds Op.effect (Op.Allowed ctl) (Host.Ordinary conf) (Host.Ordinary conf) s
    fun a h => h.Ordinary conf ∧ R a

theorem keeps_check {error : Failure → String} (hop : op.Usual conf) :
    Keeps ctl conf (check (reported error) op) fun _ => True := by
  apply upholds_check (fun _ hh => hh)
  intro h answer hh _
  exact ⟨hh.effect hop answer, fun _ => ⟨hh.effect hop answer, trivial⟩⟩

theorem keeps_ignore (hop : op.Usual conf) : Keeps ctl conf (.ignore op) fun _ => True := by
  apply upholds_ignore (fun _ hh => hh)
  intro h answer hh _
  exact ⟨hh.effect hop answer, hh.effect hop answer, trivial⟩

theorem keeps_bind {α β : Type} {s : PfScript α} {f : α → PfScript β} {R : α → Prop} {S : β → Prop}
    (hs : Keeps ctl conf s R) (hf : ∀ a, R a → Keeps ctl conf (f a) S) :
    Keeps ctl conf (s.bind f) S := by
  apply upholds_bind hs
  intro a x trace rest result hx hruns hallows
  exact hf a hx.2 x trace rest result hx.1 hruns hallows

theorem keeps_anchorReferenced : Keeps ctl conf anchorReferenced fun _ => True := by
  refine upholds_command (R := fun _ => Host.Ordinary conf) (fun _ hh => hh) ?_ ?_
  · have hop : Op.listRules.Usual conf := trivial
    exact fun h filter hh _ => hh.effect hop filter
  · intro filter
    refine upholds_command (R := fun _ => Host.Ordinary conf) (fun _ hh => hh) ?_ ?_
    · have hop : Op.listNat.Usual conf := trivial
      exact fun h nat hh _ => hh.effect hop nat
    · exact fun nat => upholds_done (fun _ hh => hh) fun _ hh => ⟨hh, trivial⟩

theorem keeps_readConf : Keeps ctl conf readConf fun text => text = conf := by
  refine upholds_command (R := fun answer h => h.Ordinary conf ∧ answer ≠ .ok ∧
    ∀ text, answer = .output text → text = conf) (fun _ hh => hh) ?_ ?_
  · intro h answer hh hallowed
    have hop : Op.readConf.Usual conf := trivial
    refine ⟨hh.effect hop answer, ?_, ?_⟩
    · rintro rfl
      exact hallowed
    · rintro text rfl
      exact Option.some.inj (hallowed.symm.trans hh.file)
  · intro answer
    cases answer with
    | output text =>
      exact upholds_done (fun _ hh => hh.1) fun h hh => ⟨hh.1, hh.2.2 text rfl⟩
    | failed took failure => exact upholds_fail (fun _ hh => hh.1)
    | ok => exact upholds_done (fun _ hh => hh.1) fun h hh => absurd rfl hh.2.1

theorem keeps_setup (fw : FirewallConfig) (addrs : InterfaceAddrs) :
    Keeps ctl conf (setup fw addrs) fun _ => True := by
  have henable : Op.enable.Usual conf := trivial
  have hverify : Op.verify.Usual conf := trivial
  have hverified : Keeps ctl conf (Script.bind (.ignore .enable) fun _ => .ignore .verify)
      fun _ => True :=
    keeps_bind (keeps_ignore henable) fun _ _ => keeps_ignore hverify
  have hsysctl : ∀ f, Keeps ctl conf (sysctl f true) fun _ => True := by
    intro f
    have hop : (Op.setForwarding f true).Usual conf := trivial
    exact keeps_check hop
  apply keeps_bind (hsysctl .ip)
  intro _ _
  apply keeps_bind (hsysctl .ip6)
  intro _ _
  have hrules : (Op.loadAnchor (rulesText fw addrs)).Usual conf := ⟨fw, addrs, rfl⟩
  apply keeps_bind (keeps_check hrules)
  intro _ _
  apply keeps_bind keeps_anchorReferenced
  intro referenced _
  cases referenced with
  | true => exact hverified
  | false =>
    have hensure : Keeps ctl conf ensureAnchorReferenced fun _ => True := by
      apply keeps_bind keeps_readConf
      rintro text rfl
      have hmain : (Op.loadMain (mainRulesetWithAnchorReferences text)).Usual text := rfl
      exact keeps_check hmain
    exact keeps_bind hensure fun _ _ => hverified

theorem keeps_teardown : Keeps ctl conf teardown fun _ => True := by
  have hflush : Op.flushAnchor.Usual conf := trivial
  have hconf : Op.loadConf.Usual conf := trivial
  have hforwarding : ∀ f, (Op.setForwarding f false).Usual conf := fun _ => trivial
  apply keeps_bind (keeps_ignore hflush)
  intro _ _
  apply keeps_bind (keeps_ignore hconf)
  intro _ _
  apply keeps_bind (keeps_check (hforwarding .ip))
  exact fun _ _ => keeps_ignore (hforwarding .ip6)

theorem Host.Reached.ordinary (hreached : h.Reached ctl conf) : h.Ordinary conf := by
  induction hreached with
  | boot hmain hconf hanchor => exact ⟨hconf, .inl hmain, .inl hanchor⟩
  | @setup h fw addrs trace rest result _ hruns hanswers ih =>
    exact (keeps_setup fw addrs h trace rest result ih hruns hanswers).1
  | @teardown h trace rest result _ hruns hanswers ih =>
    exact (keeps_teardown h trace rest result ih hruns hanswers).1

/-- What a teardown asks for. -/
theorem runs_teardown {trace : List (Op × Answer)} {result : Except String Unit}
    (hruns : teardown.Runs trace result) : ∃ flushed loaded rest,
      trace = (.flushAnchor, flushed) :: (.loadConf, loaded) :: rest ∧
      (∀ e ∈ rest, ∃ f on, e.1 = .setForwarding f on) ∧
      (result = .ok () → ∃ switched other, rest =
        [(.setForwarding .ip false, switched), (.setForwarding .ip6 false, other)] ∧
          ∀ h, Op.effect (.setForwarding .ip false) switched h =
            Op.apply h (.setForwarding .ip false)) := by
  obtain ⟨flushed, more, hmore, rfl⟩ := runs_ignore_bind.mp hruns
  obtain ⟨loaded, rest, hrest, rfl⟩ := runs_ignore_bind.mp hmore
  refine ⟨flushed, loaded, rest, rfl, ?_, ?_⟩
  · have hissues : Issues (fun op : Op => ∃ f on, op = .setForwarding f on)
        (Script.bind (sysctl .ip false) fun _ => .ignore (.setForwarding .ip6 false)) :=
      issues_bind (issues_check ⟨_, _, rfl⟩) fun _ => issues_ignore ⟨_, _, rfl⟩
    exact hissues rest result hrest
  · rintro rfl
    obtain ⟨_, _, _, hfirst, hsecond, rfl⟩ := runs_bind_ok.mp hrest
    obtain ⟨switched, hok, rfl⟩ := runs_check_ok.mp hfirst
    obtain ⟨other, rfl, _⟩ := runs_ignore.mp hsecond
    exact ⟨switched, other, rfl, fun h => effect_of_reported hok⟩

theorem after_switches {trace : List (Op × Answer)}
    (hops : ∀ e ∈ trace, ∃ f on, e.1 = Op.setForwarding f on) (h : Host) :
    (h.after trace).anchor = h.anchor ∧ (h.after trace).main = h.main := by
  have hpart : ∀ {τ : Type} (part : Host → τ),
      (∀ f on (h : Host), part (Op.apply h (.setForwarding f on)) = part h) →
        part (h.after trace) = part h := by
    intro τ part hkept
    refine @Script.after_frame _ _ trace _ Op.effect h _ part ?_
    intro e he x
    obtain ⟨f, on, hop⟩ := hops e he
    rw [hop]
    unfold Op.effect
    split
    · rfl
    · exact hkept f on x
  exact ⟨hpart Host.anchor fun _ _ _ => rfl, hpart Host.main fun _ _ _ => rfl⟩

/-- On a host with any history of setups and teardowns, each cut off anywhere and with any of its
operations failing, the file of the system is untouched, its ruleset is in use with the references
or without, and the anchor holds the rules of a setup or nothing. A teardown that gets to flush the
anchor and to load the file leaves neither rules nor references, also where it fails later on. -/
theorem pf_of_reached (hreached : h.Reached ctl conf) : h.Ordinary conf ∧
    ∀ trace result, teardown.Runs trace result → h.Answers ctl trace →
      (.flushAnchor, .ok) ∈ trace → (.loadConf, .ok) ∈ trace →
        (h.after trace).anchor = "" ∧ (h.after trace).main = conf ∧
          (result = .ok () → (h.after trace).forwarding .ip = false) := by
  have hordinary := hreached.ordinary
  refine ⟨hordinary, ?_⟩
  intro trace result hruns _ hflush hload
  obtain ⟨flushed, loaded, rest, rfl, hops, hok⟩ := runs_teardown hruns
  have hflushed : flushed = .ok := by
    rcases List.mem_cons.mp hflush with heq | hmem
    · exact (Prod.mk.inj heq).2.symm
    · rcases List.mem_cons.mp hmem with heq | hmem
      · cases heq
      · obtain ⟨_, _, hop⟩ := hops _ hmem
        cases hop
  have hloaded : loaded = .ok := by
    rcases List.mem_cons.mp hload with heq | hmem
    · cases heq
    · rcases List.mem_cons.mp hmem with heq | hmem
      · exact (Prod.mk.inj heq).2.symm
      · obtain ⟨_, _, hop⟩ := hops _ hmem
        cases hop
  subst hflushed hloaded
  have hafter : h.after ((.flushAnchor, .ok) :: (.loadConf, .ok) :: rest) =
      { h with anchor := "", main := conf }.after rest := by
    simp only [Host.after, after_cons, Op.effect, Op.apply, hordinary.file, Option.getD_some]
  obtain ⟨hanchor, hmain⟩ := after_switches hops { h with anchor := "", main := conf }
  rw [hafter]
  refine ⟨hanchor, hmain, ?_⟩
  intro hresult
  obtain ⟨switched, other, rfl, hswitched⟩ := hok hresult
  rw [Host.after, after_cons, hswitched, after_cons, after_nil]
  unfold Op.effect
  split <;> simp [Op.apply]

end Histories

theorem pf_of_reached_sample : (sampleHost.after sampleSetup).Ordinary sampleConf := by
  have hboot : sampleHost.Reached samplePfctl sampleConf := .boot rfl rfl rfl
  have hruns : (setup sampleFw ⟨none, none⟩).Runs (sampleSetup ++ []) (.ok ()) := by
    rw [List.append_nil]
    exact runs_sampleSetup.1
  exact (pf_of_reached (.setup hboot hruns runs_sampleSetup.2)).1

end TransProxy.Firewall.Pf
