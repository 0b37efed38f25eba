import TransProxy.Firewall.Cleanup

/-!
# Setups behind other runs

Setups and teardowns of any configurations, with commands that all do what they are to do.
What a setup leaves behind them is what it leaves on a clean host, but for the TPROXY
routing: a setup that does not proxy UDP leaves that as it was.
-/
namespace TransProxy.Firewall
open Library Script

/-- The commands of a run where each of them succeeds. -/
def issued {α : Type} (s : FirewallScript α) : List Cmd :=
  (s.run fun _ => Outcome.success).1.map Prod.fst

section Issued
variable {α β : Type} {s : FirewallScript α} {k : α → FirewallScript β} {f : NftFamily}
  {fw : FirewallConfig} {addrs : InterfaceAddrs} {cmds : List Cmd}

theorem succeeds_runCmds : (runCmds cmds).Succeeds fun _ => Outcome.success :=
  succeeds_checkAll fun _ _ => rfl

theorem succeeds_setupQuicBlockOutput :
    (setupQuicBlockOutput fw f).Succeeds fun _ => Outcome.success := by
  unfold setupQuicBlockOutput
  split_ifs
  · exact succeeds_done _ ()
  · exact succeeds_runCmds

theorem succeeds_setupQuicBlock : (setupQuicBlock fw f).Succeeds fun _ => Outcome.success := by
  unfold setupQuicBlock
  split_ifs
  · exact succeeds_done _ ()
  · exact succeeds_bind succeeds_runCmds fun _ => succeeds_setupQuicBlockOutput

theorem succeeds_setupUdpHandling :
    (setupUdpHandling fw f).Succeeds fun _ => Outcome.success := by
  unfold setupUdpHandling
  split_ifs
  · apply succeeds_bind (succeeds_attempt _ _)
    intro tproxy
    cases tproxy with
    | ok _ => exact succeeds_setupQuicBlockOutput
    | error _ => exact succeeds_setupQuicBlock
  · exact succeeds_setupQuicBlock
  · exact succeeds_done _ ()

theorem succeeds_setupFamily : (setupFamily f fw addrs).Succeeds fun _ => Outcome.success :=
  succeeds_bind succeeds_runCmds fun _ => succeeds_setupUdpHandling

theorem issued_bind {a : α} (h : (s.run fun _ => Outcome.success).2 = .ok a) :
    issued (s.bind k) = issued s ++ issued (k a) := by
  rw [issued, run_bind_ok h, List.map_append]
  rfl

theorem issued_attempt_bind {k : Except String α → FirewallScript β} :
    issued (s.attempt.bind k) =
      issued s ++ issued (k (s.run fun _ => Outcome.success).2) := by
  have hresult : (s.attempt.run fun _ => Outcome.success).2 =
      .ok (s.run fun _ => Outcome.success).2 := by rw [run_attempt]
  rw [issued_bind hresult, issued, run_attempt]
  rfl

/-- What `setup_tproxy_routing` gives for a family. -/
def routingCmds (f : NftFamily) : List Cmd := [.ruleDel f, .ruleAdd f, .routeFlush f, .routeAdd f]

/-- The routing comes behind everything else, if at all. -/
theorem issued_setup : issued (setup fw addrs) =
    ([.deleteTable .ip, .deleteTable .ip6, .setForwarding .ip true, .setForwarding .ip6 true] ++
      (issued (setupFamily .ip fw addrs) ++ issued (setupFamily .ip6 fw addrs))) ++
      if fw.proxyUdp then routingCmds .ip ++ routingCmds .ip6 else [] := by
  obtain ⟨u, hu⟩ : (setupFamily .ip fw addrs).Succeeds fun _ => Outcome.success :=
    succeeds_setupFamily
  let udp : FirewallScript Unit :=
    if fw.proxyUdp then setupTproxyRouting.attempt.bind fun _ => .done () else .done ()
  have hudp : issued udp = if fw.proxyUdp then routingCmds .ip ++ routingCmds .ip6 else [] := by
    cases h : fw.proxyUdp <;> simp only [udp, h] <;> rfl
  have hsections : issued ((setupFamily .ip fw addrs).bind fun _ =>
      (setupIpv6 fw addrs).attempt.bind fun _ => udp) =
      issued (setupFamily .ip fw addrs) ++
        (issued (setupFamily .ip6 fw addrs) ++ issued udp) := by
    rw [issued_bind hu, issued_attempt_bind]
    rfl
  rw [← hudp, List.append_assoc, List.append_assoc, ← hsections]
  rfl

end Issued

section Insensitive
variable {f : NftFamily} {fw : FirewallConfig} {addrs : InterfaceAddrs} {cmd : Cmd}

theorem OfSection.not_deletion (h : OfSection f cmd) : ¬cmd.Deletion := by
  rintro hdel
  cases h <;> cases hdel

theorem insensitive_runCmds_one (h : ¬cmd.Deletion) :
    (runCmds [cmd]).Insensitive Cmd.Deletion :=
  insensitive_of_issues (issues_checkAll (List.forall_mem_singleton.mpr h))

theorem insensitive_setupFamily : (setupFamily f fw addrs).Insensitive Cmd.Deletion := by
  apply insensitive_of_issues
  exact issues_setupFamily.mono fun _ => OfSection.not_deletion

theorem insensitive_setupTproxyRouting : setupTproxyRouting.Insensitive Cmd.Deletion := by
  apply insensitive_bind insensitive_ignore
  intro _
  apply insensitive_bind (insensitive_runCmds_one (by nofun))
  intro _
  apply insensitive_bind insensitive_ignore
  intro _
  apply insensitive_bind (insensitive_runCmds_one (by nofun))
  intro _
  apply insensitive_bind insensitive_ignore
  intro _
  apply insensitive_bind insensitive_ignore
  intro _
  apply insensitive_bind insensitive_ignore
  exact fun _ => insensitive_ignore

theorem insensitive_setup : (setup fw addrs).Insensitive Cmd.Deletion := by
  apply insensitive_bind insensitive_ignore
  intro _
  apply insensitive_bind insensitive_ignore
  intro _
  apply insensitive_bind (insensitive_runCmds_one (by nofun))
  intro _
  apply insensitive_bind insensitive_ignore
  intro _
  apply insensitive_bind insensitive_setupFamily
  intro _
  apply insensitive_bind (insensitive_attempt insensitive_setupFamily)
  intro _
  split_ifs
  · apply insensitive_bind (insensitive_attempt insensitive_setupTproxyRouting)
    exact fun _ => trivial
  · trivial

theorem insensitive_teardown : teardown.Insensitive Cmd.Deletion := by
  apply insensitive_bind insensitive_ignore
  intro _
  apply insensitive_bind insensitive_ignore
  intro _
  apply insensitive_bind
  · apply insensitive_bind insensitive_ignore
    intro _
    apply insensitive_bind insensitive_ignore
    intro _
    apply insensitive_bind insensitive_ignore
    exact fun _ => insensitive_ignore
  intro _
  apply insensitive_bind (insensitive_runCmds_one (by nofun))
  exact fun _ => insensitive_ignore

end Insensitive

theorem Host.Effective.after_eq_issued {α : Type} {host : Host} {s : FirewallScript α}
    {trace : List (Cmd × Outcome)} {result : Except String α} (h : host.Effective trace)
    (hs : s.Insensitive Cmd.Deletion) (hruns : s.Runs trace result) :
    host.after trace = host.applyAll (issued s) := by
  have hfailed : ∀ e ∈ trace, e.2 = .success ∨ e.1.Deletion :=
    Allows.forall_mem h fun _ _ _ heffective => heffective.imp_right And.left
  have hissued : trace.map Prod.fst = issued s := (hs.run_eq hruns hfailed).1
  rw [h.after_eq, hissued]

inductive Call where
  | setup (fw : FirewallConfig) (addrs : InterfaceAddrs)
  | teardown

def Call.script : Call → FirewallScript Unit
  | .setup fw addrs => Firewall.setup fw addrs
  | .teardown => Firewall.teardown

/-- The hosts that the calls make of a clean one, while all commands work. -/
inductive Host.Ran : List Call → Host → Prop
  | clean {host : Host} (h : host.Clean) : Ran [] host
  | call {calls : List Call} {call : Call} {host : Host} {trace : List (Cmd × Outcome)}
      {result : Except String Unit} (h : Ran calls host) (hruns : call.script.Runs trace result)
      (heffective : host.Effective trace) : Ran (calls ++ [call]) (host.after trace)

/-- What a call makes of the TPROXY routing. -/
def Call.routing (left : Bool) : Call → Bool
  | .setup fw _ => left || fw.proxyUdp
  | .teardown => false

/-- Some setup that proxies UDP is not followed by a teardown. -/
def routingLeft (calls : List Call) : Bool := calls.foldl Call.routing false

/-- The TPROXY routing is there, once, or it is not there. -/
structure Host.Routing (host : Host) (left : Bool) : Prop where
  markRules : ∀ f, host.markRules f = left.toNat
  markRoute : ∀ f, host.markRoute f = left

section Routing
variable {host : Host} {left : Bool} {cmds : List Cmd} {fw : FirewallConfig}
  {addrs : InterfaceAddrs}

theorem Host.applyAll_append (more : List Cmd) :
    host.applyAll (cmds ++ more) = (host.applyAll cmds).applyAll more :=
  List.foldl_append

theorem Host.Routing.applyAll (h : host.Routing left) (hcmds : ∀ cmd ∈ cmds, cmd.program ≠ "ip") :
    (host.applyAll cmds).Routing left := by
  induction cmds generalizing host with
  | nil => exact h
  | cons cmd cmds ih =>
    obtain ⟨hcmd, hrest⟩ := List.forall_mem_cons.mp hcmds
    have happly : (cmd.apply host).Routing left := by
      cases cmd with
      | ruleDel _ => exact absurd rfl hcmd
      | ruleAdd _ => exact absurd rfl hcmd
      | routeFlush _ => exact absurd rfl hcmd
      | routeAdd _ => exact absurd rfl hcmd
      | _ => exact ⟨h.markRules, h.markRoute⟩
    exact ih happly hrest

/-- The routing is there once, whether or not it was there before. -/
theorem Host.Routing.install (h : host.Routing left) :
    (host.applyAll (routingCmds .ip ++ routingCmds .ip6)).Routing true := by
  have hrules := h.markRules
  constructor
  · intro f
    cases f <;> cases left <;>
      simp [routingCmds, Host.applyAll, Cmd.apply, Function.update, hrules]
  · intro f
    cases f <;> simp [routingCmds, Host.applyAll, Cmd.apply, Function.update]

theorem Host.Routing.setup (h : host.Routing left) :
    (host.applyAll (issued (setup fw addrs))).Routing (left || fw.proxyUdp) := by
  have hpreliminary : ∀ cmd ∈ [Cmd.deleteTable .ip, .deleteTable .ip6, .setForwarding .ip true,
      .setForwarding .ip6 true], cmd.program ≠ "ip" := by simp [Cmd.program]
  have hsection : ∀ f, ∀ cmd ∈ issued (setupFamily f fw addrs), cmd.program ≠ "ip" := by
    intro f cmd hcmd
    obtain ⟨e, he, rfl⟩ := List.mem_map.mp hcmd
    have hprogram := (issues_setupFamily _ _ (runs_run _ _) e he).program
    simp [hprogram]
  have hkeep := ((h.applyAll hpreliminary).applyAll (hsection .ip)).applyAll (hsection .ip6)
  rw [issued_setup, Host.applyAll_append, Host.applyAll_append, Host.applyAll_append]
  cases hudp : fw.proxyUdp with
  | false =>
    rw [Bool.or_false, if_neg Bool.false_ne_true]
    exact hkeep.applyAll (List.forall_mem_nil _)
  | true =>
    rw [Bool.or_true, if_pos rfl]
    exact hkeep.install

theorem Host.Routing.after_setup {trace : List (Cmd × Outcome)} {result : Except String Unit}
    (h : host.Routing left) (hruns : (Firewall.setup fw addrs).Runs trace result)
    (heffective : host.Effective trace) : (host.after trace).Routing (left || fw.proxyUdp) := by
  rw [heffective.after_eq_issued insensitive_setup hruns]
  exact h.setup

theorem Host.Routing.teardown (h : host.Routing left) :
    (host.applyAll (issued teardown)).Routing false := by
  have hissued : issued Firewall.teardown = [.deleteTable .ip, .deleteTable .ip6, .ruleDel .ip,
      .routeFlush .ip, .ruleDel .ip6, .routeFlush .ip6, .setForwarding .ip false,
      .setForwarding .ip6 false] := rfl
  rw [hissued]
  have hrules := h.markRules
  constructor
  · intro f
    cases f <;> cases left <;> simp [Host.applyAll, Cmd.apply, Function.update, hrules]
  · intro f
    cases f <;> simp [Host.applyAll, Cmd.apply, Function.update]

end Routing

theorem Host.Ran.routing {calls : List Call} {host : Host} (h : host.Ran calls) :
    host.Routing (routingLeft calls) := by
  induction h with
  | clean h => exact ⟨h.markRules, h.markRoute⟩
  | @call calls call host trace result _ hruns heffective ih =>
    rw [routingLeft, List.foldl_append]
    cases call with
    | setup fw addrs => exact ih.after_setup hruns heffective
    | teardown =>
      rw [heffective.after_eq_issued insensitive_teardown hruns]
      exact ih.teardown

/-- The same tables, rules and routes of the program. -/
structure Host.SameFirewall (host host' : Host) : Prop where
  tables : host.tables = host'.tables
  markRules : host.markRules = host'.markRules
  markRoute : host.markRoute = host'.markRoute

section Tables
variable {host host' : Host} {fw : FirewallConfig} {addrs : InterfaceAddrs}

theorem Host.tables_apply_congr (h : host.tables = host'.tables) (cmd : Cmd) :
    (cmd.apply host).tables = (cmd.apply host').tables := by
  cases cmd <;> simp only [Cmd.apply, h]

theorem Host.tables_applyAll_congr (h : host.tables = host'.tables) (cmds : List Cmd) :
    (host.applyAll cmds).tables = (host'.applyAll cmds).tables := by
  induction cmds generalizing host host' with
  | nil => exact h
  | cons cmd cmds ih => exact ih (Host.tables_apply_congr h cmd)

/-- It begins with the deletion of both tables. -/
theorem Host.tables_setup : (host.applyAll (issued (setup fw addrs))).tables =
    (host'.applyAll (issued (setup fw addrs))).tables := by
  have hdeleted : ∀ x : Host,
      (x.applyAll [.deleteTable .ip, .deleteTable .ip6]).tables = fun _ => none := by
    intro x
    funext f
    cases f <;> rfl
  obtain ⟨rest, hrest⟩ : ∃ rest, issued (setup fw addrs) =
      [.deleteTable .ip, .deleteTable .ip6] ++ rest := ⟨_, rfl⟩
  rw [hrest, Host.applyAll_append, Host.applyAll_append]
  exact Host.tables_applyAll_congr ((hdeleted host).trans (hdeleted host').symm) rest

end Tables

/-- A setup leaves what it leaves on a clean host just if it proxies UDP itself, or no setup
that does has been left without a teardown. -/
theorem setup_as_on_clean_iff {calls : List Call} {host clean : Host} {fw : FirewallConfig}
    {addrs : InterfaceAddrs} {trace trace' : List (Cmd × Outcome)}
    {result result' : Except String Unit} (h : host.Ran calls)
    (hruns : (setup fw addrs).Runs trace result) (heffective : host.Effective trace)
    (hclean : clean.Clean) (hruns' : (setup fw addrs).Runs trace' result')
    (heffective' : clean.Effective trace') :
    (host.after trace).SameFirewall (clean.after trace') ↔
      fw.proxyUdp = true ∨ routingLeft calls = false := by
  have hleft := h.routing.after_setup hruns heffective
  have hnone : clean.Routing false := ⟨hclean.markRules, hclean.markRoute⟩
  have hnew := hnone.after_setup hruns' heffective'
  constructor
  · intro hsame
    have hroute := congrFun hsame.markRoute .ip
    rw [hleft.markRoute, hnew.markRoute] at hroute
    cases hudp : fw.proxyUdp <;> simp_all
  · intro hcase
    have heq : (routingLeft calls || fw.proxyUdp) = (false || fw.proxyUdp) := by
      rcases hcase with hudp | hnot
      · simp [hudp]
      · rw [hnot]
    have htables : (host.after trace).tables = (clean.after trace').tables := by
      rw [heffective.after_eq_issued insensitive_setup hruns,
        heffective'.after_eq_issued insensitive_setup hruns']
      exact Host.tables_setup
    rw [heq] at hleft
    exact ⟨htables, funext fun f => (hleft.markRules f).trans (hnew.markRules f).symm,
      funext fun f => (hleft.markRoute f).trans (hnew.markRoute f).symm⟩

/-- An HTTP upstream, and the defaults. -/
def sampleHttp : Config := Proxy.sampleConfig (.v4 .unspecified 8443) Proxy.sampleProxy

/-- The host that a setup with the SOCKS5 upstream leaves. -/
def sampleUsed : Host := sampleHost.after (sampleTrace sampleSocks5)

theorem effective_sampleTrace (host : Host) (config : Config) :
    host.Effective (sampleTrace config) :=
  Host.effective_of_success fun _ he => mem_run he

theorem ran_sampleUsed :
    sampleUsed.Ran [.setup (.fromConfig sampleEnv sampleSocks5) sampleAddrs] :=
  .call (.clean clean_sampleHost) (runs_sampleTrace sampleSocks5 rfl)
    (effective_sampleTrace sampleHost sampleSocks5)

theorem setup_as_on_clean_iff_sample :
    (sampleUsed.after (sampleTrace sampleSocks5)).SameFirewall
      (sampleHost.after (sampleTrace sampleSocks5)) :=
  (setup_as_on_clean_iff ran_sampleUsed (runs_sampleTrace sampleSocks5 rfl)
    (effective_sampleTrace sampleUsed sampleSocks5) clean_sampleHost
    (runs_sampleTrace sampleSocks5 rfl) (effective_sampleTrace sampleHost sampleSocks5)).mpr
    (.inl (by decide))

/-- The routing for UDP outlives the change to an HTTP upstream. -/
theorem routing_outlives_change :
    sampleUsed.Ran [.setup (.fromConfig sampleEnv sampleSocks5) sampleAddrs] ∧
    (setup (.fromConfig sampleEnv sampleHttp) sampleAddrs).Runs (sampleTrace sampleHttp)
      (.ok ()) ∧
    sampleUsed.Effective (sampleTrace sampleHttp) ∧ sampleHost.Clean ∧
    sampleHost.Effective (sampleTrace sampleHttp) ∧
    ¬(sampleUsed.after (sampleTrace sampleHttp)).SameFirewall
      (sampleHost.after (sampleTrace sampleHttp)) := by
  refine ⟨ran_sampleUsed, runs_sampleTrace sampleHttp rfl, effective_sampleTrace _ _,
    clean_sampleHost, effective_sampleTrace _ _, fun hsame => ?_⟩
  have hleft : (sampleUsed.after (sampleTrace sampleHttp)).markRoute .ip = true :=
    (ran_sampleUsed.routing.after_setup (runs_sampleTrace sampleHttp rfl)
      (effective_sampleTrace _ _)).markRoute .ip
  have hnone : sampleHost.Routing false := ⟨fun _ => rfl, fun _ => rfl⟩
  have hnew : (sampleHost.after (sampleTrace sampleHttp)).markRoute .ip = false :=
    (hnone.after_setup (runs_sampleTrace sampleHttp rfl) (effective_sampleTrace _ _)).markRoute .ip
  rw [hsame.markRoute, hnew] at hleft
  cases hleft

end TransProxy.Firewall
