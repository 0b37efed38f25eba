import TransProxy.Library.Fairness
import TransProxy.Server.Tasks
import TransProxy.Service.Modes

/-!
# When the server ends

The proxy is not to outlive the DNS forwarder, to which the firewall leads all queries. A server
that is asked for ends exactly if it gets a signal or loses the forwarder, or if the proxy cannot
start. What becomes of the gateway advertisements, the UDP relay and the connections does not
matter for it.
-/
namespace TransProxy.Server
open Library Net Config

/-- The result that an action leads to, of those that make the server end. -/
def Action.ending (addr : Part → SocketAddr) : Action → Option (Except String Unit)
  | .call .relay _ _ => none
  | .call .proxy c (.error e) => some (.error (c.error (addr .proxy) e))
  | .call part c (.error e) =>
    some (.error ("DNS forwarder failed: " ++ c.error (addr part) e))
  | .dnsRecvFails e => some (.error ("DNS forwarder failed: " ++ e))
  | .dnsAcceptFails e =>
    some (.error ("DNS forwarder failed: " ++ ("TCP DNS accept failed: " ++ e)))
  | .dnsPanics e => some (.error ("DNS forwarder task panicked: " ++ e))
  | .installTerm (.error e) => some (.error ("failed to install SIGTERM handler: " ++ e))
  | .ctrlC (.error e) => some (.error ("failed to install Ctrl-C handler: " ++ e))
  | .ctrlC (.ok ()) => some (.ok ())
  | .sigterm => some (.ok ())
  | _ => none

/-- `main` looks at a task that it waits for. -/
def Action.Sees : Action → Prop
  | .seeProxy | .seeDns | .seeShutdown => True
  | _ => False

def State.verdicts (s : State) : List (Except String Unit) :=
  s.dns.verdict.toList ++ (s.proxy.verdict.toList ++ s.shutdown.verdict.toList)

section Step
variable {addr : Part → SocketAddr} {s t : State} {a : Action}

theorem mem_verdicts {r : Except String Unit} : r ∈ s.verdicts ↔
    s.dns.verdict = some r ∨ s.proxy.verdict = some r ∨ s.shutdown.verdict = some r := by
  simp [State.verdicts]

/-- The verdicts after an action: those from before, and the one that the action leads to. -/
def Adds (s t : State) (ending : Option (Except String Unit)) : Prop :=
  t.result = none ∧ ∀ r, r ∈ t.verdicts ↔ r ∈ s.verdicts ∨ ending = some r

theorem adds_none (hs : s.result = none) (hresult : t.result = s.result)
    (hdns : t.dns.verdict = s.dns.verdict) (hproxy : t.proxy.verdict = s.proxy.verdict)
    (hshutdown : t.shutdown.verdict = s.shutdown.verdict) : Adds s t none := by
  refine ⟨hresult.trans hs, ?_⟩
  intro r
  simp [mem_verdicts, hdns, hproxy, hshutdown]

theorem adds_dns {dns : Dns} {ending : Option (Except String Unit)} (hs : s.result = none)
    (hbefore : s.dns.verdict = none) (hafter : dns.verdict = ending) :
    Adds s { s with dns } ending := by
  refine ⟨hs, ?_⟩
  intro r
  simp only [mem_verdicts, hbefore, hafter, reduceCtorEq, false_or]
  exact or_comm

theorem adds_proxy {proxy : Proxy} {ending : Option (Except String Unit)} (hs : s.result = none)
    (hbefore : s.proxy.verdict = none) (hafter : proxy.verdict = ending) :
    Adds s { s with proxy } ending := by
  refine ⟨hs, ?_⟩
  intro r
  simp only [mem_verdicts, hbefore, hafter, reduceCtorEq, false_or]
  tauto

theorem adds_shutdown {shutdown : Shutdown} {ending : Option (Except String Unit)}
    (hs : s.result = none) (hbefore : s.shutdown.verdict = none)
    (hafter : shutdown.verdict = ending) : Adds s { s with shutdown } ending := by
  refine ⟨hs, ?_⟩
  intro r
  simp only [mem_verdicts, hbefore, hafter, reduceCtorEq, or_false]
  tauto

theorem call_cases {addr : SocketAddr} {c : Call} {r : Except IoError Unit} {calls : Task}
    {after : Except String Task} (h : call addr c r calls = some after) :
    (∃ rest, r = .ok () ∧ after = .ok rest) ∨
      ∃ e, r = .error e ∧ after = .error (c.error addr e) := by
  cases calls with
  | nil => cases h
  | cons next rest =>
    simp only [call] at h
    split_ifs at h
    cases r with
    | ok u => exact .inl ⟨rest, rfl, (Option.some.inj h).symm⟩
    | error e => exact .inr ⟨e, rfl, (Option.some.inj h).symm⟩

/-- A call of the DNS task leaves it at work, or ends it with the error of the call. -/
theorem dns_call_cases {addr : SocketAddr} {part : Part} {c : Call} {r : Except IoError Unit}
    {dns dns' : Dns} (h : dns.call addr part c r = some dns') :
    part ≠ .proxy ∧ part ≠ .relay ∧ dns.verdict = none ∧
      ((∃ u, r = .ok u) ∧ dns'.verdict = none ∨
        ∃ e, r = .error e ∧ dns' = .ended (.error (c.error addr e))) := by
  have hcall : ∀ {calls : Task} {f : Except String Task → Dns},
      (call addr c r calls).map f = some dns' → (∀ rest, (f (.ok rest)).verdict = none) →
        (∀ e, f (.error e) = .ended (.error e)) →
          (∃ u, r = .ok u) ∧ dns'.verdict = none ∨
            ∃ e, r = .error e ∧ dns' = .ended (.error (c.error addr e)) := by
    intro calls f hmap hok herror
    obtain ⟨after, hafter, rfl⟩ := Option.map_eq_some_iff.mp hmap
    rcases call_cases hafter with ⟨rest, rfl, rfl⟩ | ⟨e, rfl, rfl⟩
    · exact .inl ⟨⟨(), rfl⟩, hok rest⟩
    · exact .inr ⟨e, rfl, herror _⟩
  cases dns with
  | preparing calls =>
    cases part <;> simp only [Dns.call, reduceCtorEq] at h
    refine ⟨by simp, by simp, rfl, hcall h ?_ (fun _ => rfl)⟩
    intro rest
    cases rest <;> rfl
  | joined udp tcp =>
    cases part <;> simp only [Dns.call, reduceCtorEq] at h
    · exact ⟨by simp, by simp, rfl, hcall h (fun _ => rfl) (fun _ => rfl)⟩
    · exact ⟨by simp, by simp, rfl, hcall h (fun _ => rfl) (fun _ => rfl)⟩
  | absent => cases h
  | ended result => cases h
  | panicked e => cases h

theorem adds_of_call (hs : s.result = none) {part : Part} {c : Call} {r : Except IoError Unit}
    (h : taskStep addr s (.call part c r) = some t) :
    Adds s t (Action.ending addr (.call part c r)) := by
  have hdns : part ≠ .proxy → part ≠ .relay →
      (s.dns.call (addr part) part c r).map (fun dns => { s with dns }) = some t →
        Adds s t (Action.ending addr (.call part c r)) := by
    intro hproxy hrelay hmap
    obtain ⟨dns, hcall, rfl⟩ := Option.map_eq_some_iff.mp hmap
    obtain ⟨_, _, hbefore, ⟨⟨u, rfl⟩, hafter⟩ | ⟨e, rfl, rfl⟩⟩ := dns_call_cases hcall
    · apply adds_dns hs hbefore
      rw [hafter]
      cases part <;> rfl
    · apply adds_dns hs hbefore
      cases part <;> first | rfl | contradiction
  cases part with
  | dnsClient => exact hdns (by simp) (by simp) h
  | dnsUdp => exact hdns (by simp) (by simp) h
  | dnsTcp => exact hdns (by simp) (by simp) h
  | proxy =>
    cases hproxy : s.proxy <;> simp only [taskStep, hproxy, reduceCtorEq] at h
    have hbefore : s.proxy.verdict = none := by rw [hproxy]; rfl
    obtain ⟨after, hafter, rfl⟩ := Option.map_eq_some_iff.mp h
    rcases call_cases hafter with ⟨rest, rfl, rfl⟩ | ⟨e, rfl, rfl⟩
    · exact adds_proxy hs hbefore rfl
    · exact adds_proxy hs hbefore rfl
  | relay =>
    cases hrelay : s.relay <;> simp only [taskStep, hrelay, reduceCtorEq] at h
    obtain ⟨after, hafter, rfl⟩ := Option.map_eq_some_iff.mp h
    rcases call_cases hafter with ⟨rest, rfl, rfl⟩ | ⟨e, rfl, rfl⟩
    · exact adds_none hs rfl rfl rfl rfl
    · exact adds_none hs rfl rfl rfl rfl

/-- A server that has not returned takes note of an action, or returns a verdict. -/
theorem step_cases (h : step addr s a = some t) : s.result = none ∧
    (Adds s t (a.ending addr) ∨ a.Sees ∧ ∃ r ∈ s.verdicts, t = { s with result := some r }) := by
  cases hs : s.result with
  | some r => simp [step, hs] at h
  | none =>
  refine ⟨rfl, ?_⟩
  simp only [step, hs] at h
  cases a with
  | call part c r => exact .inl (adds_of_call hs h)
  | dnsRecvFails e =>
    simp only [taskStep] at h
    split at h
    · next hdns =>
      obtain rfl := Option.some.inj h
      exact .inl (adds_dns hs (by rw [hdns]; rfl) rfl)
    · cases h
  | dnsAcceptFails e =>
    simp only [taskStep] at h
    split at h
    · next hdns =>
      obtain rfl := Option.some.inj h
      exact .inl (adds_dns hs (by rw [hdns]; rfl) rfl)
    · cases h
  | dnsPanics e =>
    cases hdns : s.dns <;> simp only [taskStep, hdns, reduceCtorEq] at h
    all_goals
      obtain rfl := Option.some.inj h
      exact .inl (adds_dns hs (by rw [hdns]; rfl) rfl)
  | acceptFails e =>
    simp only [taskStep] at h
    split at h
    · obtain rfl := Option.some.inj h
      exact .inl (adds_none hs rfl rfl rfl rfl)
    · cases h
  | relayFails e =>
    simp only [taskStep] at h
    split at h
    · obtain rfl := Option.some.inj h
      exact .inl (adds_none hs rfl rfl rfl rfl)
    · cases h
  | gatewayPrepared r =>
    cases hgateway : s.gateway <;> cases r <;>
      simp only [taskStep, hgateway, reduceCtorEq] at h
    all_goals
      obtain rfl := Option.some.inj h
      exact .inl (adds_none hs rfl rfl rfl rfl)
  | installTerm r =>
    cases hshutdown : s.shutdown <;> cases r <;>
      simp only [taskStep, hshutdown, reduceCtorEq] at h
    all_goals
      obtain rfl := Option.some.inj h
      exact .inl (adds_shutdown hs (by rw [hshutdown]; rfl) rfl)
  | ctrlC r =>
    cases hshutdown : s.shutdown <;> cases r <;>
      simp only [taskStep, hshutdown, reduceCtorEq] at h
    all_goals
      obtain rfl := Option.some.inj h
      exact .inl (adds_shutdown hs (by rw [hshutdown]; rfl) rfl)
  | sigterm =>
    cases hshutdown : s.shutdown <;> simp only [taskStep, hshutdown, reduceCtorEq] at h
    obtain rfl := Option.some.inj h
    exact .inl (adds_shutdown hs (by rw [hshutdown]; rfl) rfl)
  | seeProxy =>
    obtain ⟨r, hr, rfl⟩ := Option.map_eq_some_iff.mp h
    exact .inr ⟨trivial, r, mem_verdicts.mpr (.inr (.inl hr)), rfl⟩
  | seeDns =>
    obtain ⟨r, hr, rfl⟩ := Option.map_eq_some_iff.mp h
    exact .inr ⟨trivial, r, mem_verdicts.mpr (.inl hr), rfl⟩
  | seeShutdown =>
    obtain ⟨r, hr, rfl⟩ := Option.map_eq_some_iff.mp h
    exact .inr ⟨trivial, r, mem_verdicts.mpr (.inr (.inr hr)), rfl⟩

/-- `main` can return as soon as there is a verdict. -/
theorem exists_sees_of_verdicts (hs : s.result = none) (hv : s.verdicts ≠ []) :
    ∃ a, Action.Sees a ∧ (step addr s a).isSome := by
  obtain ⟨r, hr⟩ := List.exists_mem_of_ne_nil _ hv
  rcases mem_verdicts.mp hr with h | h | h
  · exact ⟨.seeDns, trivial, by simp [step, hs, taskStep, h]⟩
  · exact ⟨.seeProxy, trivial, by simp [step, hs, taskStep, h]⟩
  · exact ⟨.seeShutdown, trivial, by simp [step, hs, taskStep, h]⟩

theorem result_of_sees (ha : a.Sees) (h : step addr s a = some t) : t.result ≠ none := by
  cases a with
  | seeProxy | seeDns | seeShutdown =>
    obtain ⟨hs, _⟩ := step_cases h
    simp only [step, hs, taskStep] at h
    obtain ⟨r, _, rfl⟩ := Option.map_eq_some_iff.mp h
    simp
  | _ => cases ha

/-- A server that has not returned has a verdict to return. -/
def State.Due (s : State) : Prop := s.result = none → s.verdicts ≠ []

/-- The step that is left for a server that has not returned. -/
def rank (s : State) : ℕ := if s.result = none then 1 else 0

theorem rank_pos_iff : 0 < rank s ↔ s.result = none := by
  unfold rank
  split_ifs with hs
  · simp [hs]
  · simp [hs]

theorem due_step (hs : s.Due) (h : step addr s a = some t) : t.Due ∧ rank t ≤ rank s := by
  obtain ⟨hrunning, hadds | ⟨_, r, _, rfl⟩⟩ := step_cases h
  · refine ⟨fun _ => ?_, by simp [rank, hadds.1, hrunning]⟩
    obtain ⟨r, hr⟩ := List.exists_mem_of_ne_nil _ (hs hrunning)
    exact List.ne_nil_of_mem ((hadds.2 r).mpr (.inl hr))
  · exact ⟨by simp [State.Due], Nat.zero_le _⟩

theorem rank_lt_of_sees (ha : a.Sees) (h : step addr s a = some t) : rank t < rank s := by
  rw [rank, rank, if_neg (result_of_sees ha h), if_pos (step_cases h).1]
  exact Nat.zero_lt_one

end Step

section Run
variable {env : Env} {platform : Platform} {config : Config} {initial s : State}
  {acts : List Action}

def Fresh (s : State) : Prop := s.result = none ∧ s.verdicts = []

/-- What the actions of a run led to is what `main` can return, or one of them was returned. -/
def Settles (addr : Part → SocketAddr) (acts : List Action) (s : State) : Prop :=
  match s.result with
  | none => ∀ r, r ∈ s.verdicts ↔ ∃ a ∈ acts, a.ending addr = some r
  | some r => ∃ a ∈ acts, a.ending addr = some r

theorem settles_of_run (hfresh : Fresh initial)
    (hrun : (system env config initial).run acts = some s) :
    Settles (Part.addr env config) acts s := by
  refine System.run_induction (P := Settles (Part.addr env config)) ?_ ?_ acts s hrun
  · simp [Settles, system, hfresh.1, hfresh.2]
  · intro acts s a t _ hs hstep
    obtain ⟨hrunning, hadds | ⟨_, r, hr, rfl⟩⟩ := step_cases hstep
    · simp only [Settles, hrunning] at hs
      simp only [Settles, hadds.1]
      intro r
      rw [hadds.2, hs]
      simp [or_and_right, exists_or]
    · simp only [Settles, hrunning] at hs
      obtain ⟨a', ha', hending⟩ := (hs r).mp hr
      exact ⟨a', List.mem_append_left _ ha', hending⟩

/-- The tasks that are started have not ended. -/
theorem fresh_of_start (h : start env platform config = some s) : Fresh s := by
  simp only [start, Option.bind_eq_bind, Option.bind_eq_some_iff] at h
  obtain ⟨dns, hdns, relay, _, h⟩ := h
  obtain rfl := Option.some.inj h
  refine ⟨rfl, ?_⟩
  have hverdict : dns.verdict = none := by
    simp only [dnsTask] at hdns
    cases hlisten : config.resolveDnsListen env with
    | none =>
      simp only [hlisten] at hdns
      obtain rfl := Option.some.inj hdns
      rfl
    | some addr =>
      simp only [hlisten] at hdns
      obtain ⟨_, _, rfl⟩ := Option.map_eq_some_iff.mp hdns
      cases config.dnsUpstream <;> rfl
  simp only [State.verdicts, hverdict]
  rfl

/-- The arguments that lead to the server give it an upstream proxy, so that it starts. -/
theorem exists_start {args : List String} (hparse : Config.parse env platform args = some config)
    (hserve : Service.modeOf env config = .serve config) :
    ∃ s, start env platform config = some s := by
  obtain ⟨proxy, hproxy⟩ := Option.isSome_iff_exists.mp
    (Service.upstreamProxy_of_serve hparse hserve)
  have hdns : ∃ dns, dnsTask env config = some dns := by
    unfold dnsTask
    cases config.resolveDnsListen env with
    | none => exact ⟨_, rfl⟩
    | some addr => exact ⟨_, by rw [hproxy]; rfl⟩
  have hrelay : ∃ relay, relayTask platform config = some relay := by
    unfold relayTask
    cases platform with
    | macos => exact ⟨_, rfl⟩
    | linux =>
      dsimp only
      split_ifs
      · exact ⟨_, by rw [hproxy]; rfl⟩
      · exact ⟨_, rfl⟩
  obtain ⟨dns, hdns⟩ := hdns
  obtain ⟨relay, hrelay⟩ := hrelay
  exact ⟨_, by simp only [start, hdns, hrelay]; rfl⟩

/-- A server that was asked for starts, and in every execution in which `main` gets its turn, it
ends exactly if some action leads to an end, and with a result that one of them leads to. -/
theorem exits_iff {args : List String} (hparse : Config.parse env platform args = some config)
    (hserve : Service.modeOf env config = .serve config) :
    ∃ initial, start env platform config = some initial ∧
      ∀ e : (system env config initial).Execution, e.WeaklyFair {a | a.Sees} →
        ((∃ n, (e.state n).result ≠ none) ↔
          ∃ n a, e.action n = some a ∧ (a.ending (Part.addr env config)).isSome) ∧
        ∀ n r, (e.state n).result = some r → ∃ m a, m < n ∧ e.action m = some a ∧
          a.ending (Part.addr env config) = some r := by
  obtain ⟨initial, hstart⟩ := exists_start hparse hserve
  refine ⟨initial, hstart, ?_⟩
  intro e hfair
  have hfresh := fresh_of_start hstart
  have hresult : ∀ n r, (e.state n).result = some r → ∃ m a, m < n ∧ e.action m = some a ∧
      a.ending (Part.addr env config) = some r := by
    intro n r hr
    have hsettles := settles_of_run hfresh (e.run_actions n)
    simp only [Settles, hr] at hsettles
    obtain ⟨a, ha, hending⟩ := hsettles
    obtain ⟨m, hm, haction⟩ := List.mem_filterMap.mp ha
    exact ⟨m, a, List.mem_range.mp hm, haction, hending⟩
  refine ⟨⟨?_, ?_⟩, hresult⟩
  · rintro ⟨n, hn⟩
    obtain ⟨r, hr⟩ := Option.ne_none_iff_exists'.mp hn
    obtain ⟨m, a, _, haction, hending⟩ := hresult n r hr
    exact ⟨m, a, haction, by rw [hending]; rfl⟩
  · rintro ⟨n, a, haction, hending⟩
    obtain ⟨r, hr⟩ := Option.isSome_iff_exists.mp hending
    have hdue : (e.state (n + 1)).Due := by
      intro hnone
      have hsettles := settles_of_run hfresh (e.run_actions (n + 1))
      simp only [Settles, hnone] at hsettles
      refine List.ne_nil_of_mem ((hsettles r).mpr ⟨a, ?_, hr⟩)
      exact List.mem_filterMap.mpr ⟨n, List.mem_range.mpr (Nat.lt_succ_self n), haction⟩
    obtain ⟨m, _, hzero⟩ := e.eventually_rank_zero rank (fun _ => {a | a.Sees})
      (fun _ => hfair) (fun _ _ _ _ hs h => due_step hs h)
      (fun _ _ hs hpos =>
        exists_sees_of_verdicts (rank_pos_iff.mp hpos) (hs (rank_pos_iff.mp hpos)))
      (fun _ _ _ _ _ _ ha h => rank_lt_of_sees ha h) hdue
    refine ⟨m, fun hnone => ?_⟩
    rw [rank, if_pos hnone] at hzero
    cases hzero

end Run

/-- The proxy accepts again after an error, but the port of the DNS forwarder is taken. -/
def sampleExit : List Action :=
  [.call .proxy .listen (.ok ()), .acceptFails "Too many open files",
    .call .dnsClient .proxyUrl (.ok ()), .call .dnsClient .httpClient (.ok ()),
    .call .dnsTcp .bindTcpDns (.error ⟨true, "Address already in use"⟩), .seeDns]

def sampleArgs : List String := ["--dns", "--upstream-proxy", "127.0.0.1:1082"]

theorem exits_iff_sample : ∃ config initial s,
    Config.parse Service.exampleEnv .linux sampleArgs = some config ∧
      start Service.exampleEnv .linux config = some initial ∧
        (system Service.exampleEnv config initial).run sampleExit = some s ∧
          s.result = some (.error ("DNS forwarder failed: Failed to bind TCP DNS listener on " ++
            "0.0.0.0:53: port already in use by another process")) ∧
          ∃ e : (system Service.exampleEnv config initial).Execution,
            ∃ n, (e.state n).result ≠ none := by
  have hfields : (Config.parse Service.exampleEnv .linux sampleArgs).map (fun c =>
      ([c.uninstall, c.install, c.start, c.stop, c.teardownFirewall, c.setupFirewall],
        ((start Service.exampleEnv .linux c).bind fun initial =>
          (system Service.exampleEnv c initial).run sampleExit).map State.result)) =
      some (List.replicate 6 false, some (some (.error
        ("DNS forwarder failed: Failed to bind TCP DNS listener on " ++
          "0.0.0.0:53: port already in use by another process")))) := by
    decide
  obtain ⟨config, hparse, hc⟩ := Option.map_eq_some_iff.mp hfields
  obtain ⟨hflags, hresult⟩ := Prod.mk.inj hc
  obtain ⟨s, hs, hresult⟩ := Option.map_eq_some_iff.mp hresult
  obtain ⟨initial, hstart, hrun⟩ := Option.bind_eq_some_iff.mp hs
  have hserve : Service.modeOf Service.exampleEnv config = .serve config := by
    simp only [List.replicate, List.cons.injEq, and_true] at hflags
    simp [Service.modeOf, hflags]
  obtain ⟨initial', hstart', hexits⟩ := exits_iff hparse hserve
  obtain rfl := Option.some.inj (hstart.symm.trans hstart')
  refine ⟨config, initial, s, hparse, hstart, hrun, hresult, .ofRun hrun, ?_⟩
  refine (hexits _ ?_).1.mpr ⟨4, _, rfl, rfl⟩
  apply System.Execution.weaklyFair_ofRun hrun
  rintro ⟨a, _, henabled⟩
  simp [system, step, hresult] at henabled

end TransProxy.Server
